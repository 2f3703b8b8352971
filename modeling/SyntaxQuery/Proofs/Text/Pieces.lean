import SyntaxQuery.Text.Basic

namespace SyntaxQuery.Text

variable {separator : Char} {part : List Char}

theorem pieces_eq_splitOn (separator : Char) (cs : List Char) :
    pieces separator cs = cs.splitOn separator := by
  induction cs with
  | nil => rfl
  | cons c cs ih =>
    rw [pieces, List.splitOn_cons_eq_if_modifyHead, ih]
    by_cases h : c = separator
    · simp [h]
    · cases hs : cs.splitOn separator with
      | nil => exact (List.splitOn_ne_nil _ _ hs).elim
      | cons piece rest => simp [h]

theorem length_pieces (separator : Char) (cs : List Char) :
    (pieces separator cs).length = cs.count separator + 1 := by
  induction cs with
  | nil => rfl
  | cons c cs ih =>
    rw [pieces, List.count_cons]
    by_cases h : c = separator
    · rw [if_pos h, if_pos (beq_iff_eq.mpr h), List.length_cons, ih]
    · rw [if_neg h, if_neg (mt beq_iff_eq.mp h), Nat.add_zero, ← ih]
      cases hp : pieces separator cs with
      | nil =>
        rw [hp] at ih
        cases ih
      | cons piece rest => rfl

theorem not_mem_of_mem_pieces {cs : List Char} (h : part ∈ pieces separator cs) :
    separator ∉ part := by
  induction cs generalizing part with
  | nil =>
    obtain rfl := List.mem_singleton.mp h
    exact List.not_mem_nil
  | cons c cs ih =>
    rw [pieces] at h
    split at h
    · obtain rfl | h := List.mem_cons.mp h
      · exact List.not_mem_nil
      · exact ih h
    · next hc =>
      cases hp : pieces separator cs with
      | nil =>
        rw [hp] at h
        obtain rfl := List.mem_singleton.mp h
        exact fun hm => hc (List.mem_singleton.mp hm).symm
      | cons piece rest =>
        rw [hp] at h ih
        obtain rfl | h := List.mem_cons.mp h
        · intro hm
          obtain he | hm := List.mem_cons.mp hm
          · exact hc he.symm
          · exact ih List.mem_cons_self hm
        · exact ih (List.mem_cons_of_mem _ h)

theorem eq_of_pieces {cs : List Char} {front back : List (List Char)}
    (h : pieces separator cs = front ++ part :: back) :
    ∃ behind, cs = front.flatMap (· ++ [separator]) ++ part ++ behind ∧
      (behind = [] ∨ [separator] <+: behind) := by
  have hc : cs = [separator].intercalate (front ++ part :: back) := by
    rw [← h, pieces_eq_splitOn, List.intercalate_splitOn]
  subst hc
  clear h
  induction front with
  | nil =>
    cases back with
    | nil => exact ⟨[], by simp, .inl rfl⟩
    | cons piece back =>
      refine ⟨separator :: [separator].intercalate (piece :: back), ?_, .inr ⟨_, rfl⟩⟩
      simp [List.intercalate_cons_cons]
  | cons piece front ih =>
    obtain ⟨behind, he, hb⟩ := ih
    refine ⟨behind, ?_, hb⟩
    rw [List.cons_append, List.intercalate_cons_of_ne_nil (by simp), he]
    simp

theorem pieces_append_of_not_mem (hp : separator ∉ part) {behind : List Char}
    (hb : behind = [] ∨ [separator] <+: behind) :
    ∃ back, pieces separator (part ++ behind) = part :: back := by
  obtain rfl | ⟨rest, rfl⟩ := hb
  · rw [List.append_nil, pieces_eq_splitOn, List.splitOn_eq_singleton hp]
    exact ⟨[], rfl⟩
  · rw [pieces_eq_splitOn, List.singleton_append, List.splitOn_append_cons_self_of_not_mem hp]
    exact ⟨_, rfl⟩

theorem head?_pieces {cs : List Char} :
    (pieces separator cs).head? = some part ↔
      separator ∉ part ∧ ∃ behind, cs = part ++ behind ∧
        (behind = [] ∨ [separator] <+: behind) := by
  constructor
  · intro h
    obtain ⟨back, h⟩ := List.head?_eq_some_iff.mp h
    have hm : part ∈ pieces separator cs := by
      rw [h]
      exact List.mem_cons_self
    have hc : pieces separator cs = [] ++ part :: back := h
    exact ⟨not_mem_of_mem_pieces hm, eq_of_pieces hc⟩
  · rintro ⟨hp, behind, rfl, hb⟩
    obtain ⟨back, h⟩ := pieces_append_of_not_mem hp hb
    rw [h]
    rfl

/-- A piece is what stands between two separators, or an end of the text. -/
theorem mem_pieces {cs : List Char} :
    part ∈ pieces separator cs ↔
      separator ∉ part ∧ ∃ before behind, cs = before ++ part ++ behind ∧
        (before = [] ∨ [separator] <:+ before) ∧ (behind = [] ∨ [separator] <+: behind) := by
  constructor
  · intro h
    refine ⟨not_mem_of_mem_pieces h, ?_⟩
    obtain ⟨front, back, h⟩ := List.append_of_mem h
    obtain ⟨behind, he, hb⟩ := eq_of_pieces h
    refine ⟨_, behind, he, ?_, hb⟩
    obtain rfl | ⟨front, piece, rfl⟩ := front.eq_nil_or_concat
    · exact .inl rfl
    · refine .inr ⟨front.flatMap (· ++ [separator]) ++ piece, ?_⟩
      simp
  · rintro ⟨hp, before, behind, rfl, ha, hb⟩
    obtain ⟨back, h⟩ := pieces_append_of_not_mem hp hb
    have hm : part ∈ pieces separator (part ++ behind) := by
      rw [h]
      exact List.mem_cons_self
    obtain rfl | ⟨before, rfl⟩ := ha
    · exact hm
    · rw [pieces_eq_splitOn] at hm ⊢
      rw [List.append_assoc, List.append_assoc, List.singleton_append,
        List.splitOn_append_cons_self]
      exact List.mem_append_right _ hm

theorem occursIn_iff {cs : List Char} : occursIn part cs = true ↔ part <:+: cs := by
  induction cs with
  | nil => rw [occursIn, List.isEmpty_iff, List.infix_nil]
  | cons c cs ih =>
    rw [occursIn, Bool.or_eq_true, ih, List.isPrefixOf_iff_prefix, List.infix_cons_iff]

end SyntaxQuery.Text
