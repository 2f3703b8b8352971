import SyntaxQuery.Text.Lowercase

namespace SyntaxQuery.Text

def endsCased (afterCased : Bool) : List Char → Bool
  | [] => afterCased
  | c :: cs => endsCased (if isCaselessMark c then afterCased else isCased c) cs

def lowerBefore (afterCased : Bool) : List Char → List Char → List Char
  | [], _ => []
  | c :: cs, behind =>
    lowerChar afterCased c (cs ++ behind) ++
      lowerBefore (if isCaselessMark c then afterCased else isCased c) cs behind

theorem lowerBefore_nil (afterCased : Bool) (cs : List Char) :
    lowerBefore afterCased cs [] = lowerFrom afterCased cs := by
  induction cs generalizing afterCased with
  | nil => rfl
  | cons c cs ih => rw [lowerBefore, lowerFrom, ih, List.append_nil]

theorem lowerBefore_append (afterCased : Bool) (cs ds behind : List Char) :
    lowerBefore afterCased (cs ++ ds) behind =
      lowerBefore afterCased cs (ds ++ behind) ++
        lowerBefore (endsCased afterCased cs) ds behind := by
  induction cs generalizing afterCased with
  | nil => rfl
  | cons c cs ih =>
    rw [List.cons_append, lowerBefore, ih, lowerBefore, endsCased, List.append_assoc,
      List.append_assoc]

/-- A text is lower-cased part by part. -/
theorem lowerFrom_append (afterCased : Bool) (cs behind : List Char) :
    lowerFrom afterCased (cs ++ behind) =
      lowerBefore afterCased cs behind ++ lowerFrom (endsCased afterCased cs) behind := by
  rw [← lowerBefore_nil, lowerBefore_append, List.append_nil, lowerBefore_nil]

theorem endsCased_append (afterCased : Bool) (cs ds : List Char) :
    endsCased afterCased (cs ++ ds) = endsCased (endsCased afterCased cs) ds := by
  induction cs generalizing afterCased with
  | nil => rfl
  | cons c cs ih => exact ih _

theorem lowerChar_sigma (afterCased : Bool) (following : List Char) :
    lowerChar afterCased 'Σ' following =
      [if afterCased && !startsCased following then 'ς' else 'σ'] :=
  if_pos rfl

theorem lowerChar_of_ne {c : Char} (h : c ≠ 'Σ') (a b : Bool) (cs ds : List Char) :
    lowerChar a c cs = lowerChar b c ds := by
  rw [lowerChar, if_neg h, lowerChar, if_neg h]

theorem length_lowerChar (a b : Bool) (c : Char) (cs ds : List Char) :
    (lowerChar a c cs).length = (lowerChar b c ds).length := by
  by_cases h : c = 'Σ'
  · subst h
    rw [lowerChar_sigma, lowerChar_sigma]
    rfl
  · rw [lowerChar_of_ne h]

theorem length_lowerBefore (a b : Bool) (part behind behind' : List Char) :
    (lowerBefore a part behind).length = (lowerBefore b part behind').length := by
  induction part generalizing a b with
  | nil => rfl
  | cons c cs ih =>
    rw [lowerBefore, lowerBefore, List.length_append, List.length_append,
      length_lowerChar a b c _ (cs ++ behind'), ih]

theorem length_lower (afterCased : Bool) (part behind : List Char) :
    (lowerBefore afterCased part behind).length = (lower part).length := by
  rw [lower, ← lowerBefore_nil]
  exact length_lowerBefore _ _ _ _ _

theorem startsCased_append_of_marks {marks : List Char} (h : ∀ c ∈ marks, isCaselessMark c = true)
    (behind : List Char) : startsCased (marks ++ behind) = startsCased behind := by
  rw [startsCased, startsCased, List.dropWhile_append_of_pos h]

theorem startsCased_of_marks {marks : List Char} (h : ∀ c ∈ marks, isCaselessMark c = true) :
    startsCased marks = false := by
  rw [← List.append_nil marks, startsCased_append_of_marks h]
  rfl

theorem startsCased_append_of_not_marks {cs : List Char}
    (h : ¬ ∀ c ∈ cs, isCaselessMark c = true) (behind : List Char) :
    startsCased (cs ++ behind) = startsCased cs := by
  induction cs with
  | nil => exact (h (by simp)).elim
  | cons c cs ih =>
    cases hc : isCaselessMark c with
    | false => simp [startsCased, hc]
    | true =>
      have ht : ¬ ∀ c ∈ cs, isCaselessMark c = true := fun ha =>
        h (List.forall_mem_cons.mpr ⟨hc, ha⟩)
      have hs := ih ht
      rw [startsCased, startsCased] at hs ⊢
      rw [List.cons_append, List.dropWhile_cons_of_pos hc, List.dropWhile_cons_of_pos hc, hs]

/-- The last letter of a part is a sigma behind a cased letter, and in its place a cased letter
follows: there it does not end a word, while it ends the part on its own. -/
def ClosesOnSigma (afterCased : Bool) (part behind : List Char) : Prop :=
  startsCased behind = true ∧ ∃ letters marks, part = letters ++ 'Σ' :: marks ∧
    (∀ c ∈ marks, isCaselessMark c = true) ∧ endsCased afterCased letters = true

/-- The first letter of a part is a sigma that in its place ends a word, while on its own it begins
one. -/
def OpensOnSigma (afterCased : Bool) (part behind : List Char) : Prop :=
  afterCased = true ∧ ∃ marks letters, part = marks ++ 'Σ' :: letters ∧
    (∀ c ∈ marks, isCaselessMark c = true) ∧ startsCased (letters ++ behind) = false

theorem not_closesOnSigma_nil (afterCased : Bool) (behind : List Char) :
    ¬ ClosesOnSigma afterCased [] behind := by
  rintro ⟨-, letters, marks, h, -⟩
  simp at h

theorem not_opensOnSigma_nil (afterCased : Bool) (behind : List Char) :
    ¬ OpensOnSigma afterCased [] behind := by
  rintro ⟨-, marks, letters, h, -⟩
  simp at h

theorem closesOnSigma_cons {afterCased : Bool} {c : Char} {cs behind : List Char} :
    ClosesOnSigma afterCased (c :: cs) behind ↔
      (c = 'Σ' ∧ afterCased = true ∧ startsCased behind = true ∧
        ∀ d ∈ cs, isCaselessMark d = true) ∨
      ClosesOnSigma (if isCaselessMark c then afterCased else isCased c) cs behind := by
  constructor
  · rintro ⟨hb, letters, marks, he, hm, ha⟩
    cases letters with
    | nil =>
      obtain ⟨rfl, rfl⟩ := List.cons.inj he
      exact .inl ⟨rfl, ha, hb, hm⟩
    | cons d letters =>
      obtain ⟨rfl, rfl⟩ := List.cons.inj he
      exact .inr ⟨hb, letters, marks, rfl, hm, ha⟩
  · rintro (⟨rfl, ha, hb, hm⟩ | ⟨hb, letters, marks, rfl, hm, ha⟩)
    · exact ⟨hb, [], cs, rfl, hm, ha⟩
    · exact ⟨hb, c :: letters, marks, rfl, hm, ha⟩

theorem opensOnSigma_cons {afterCased : Bool} {c : Char} {cs behind : List Char} :
    OpensOnSigma afterCased (c :: cs) behind ↔
      (c = 'Σ' ∧ afterCased = true ∧ startsCased (cs ++ behind) = false) ∨
      (isCaselessMark c = true ∧ OpensOnSigma afterCased cs behind) := by
  constructor
  · rintro ⟨ha, marks, letters, he, hm, hs⟩
    cases marks with
    | nil =>
      obtain ⟨rfl, rfl⟩ := List.cons.inj he
      exact .inl ⟨rfl, ha, hs⟩
    | cons d marks =>
      obtain ⟨rfl, rfl⟩ := List.cons.inj he
      obtain ⟨hd, hm⟩ := List.forall_mem_cons.mp hm
      exact .inr ⟨hd, ha, marks, letters, rfl, hm, hs⟩
  · rintro (⟨rfl, ha, hs⟩ | ⟨hc, ha, marks, letters, rfl, hm, hs⟩)
    · exact ⟨ha, [], cs, rfl, by simp, hs⟩
    · exact ⟨ha, c :: marks, letters, rfl, List.forall_mem_cons.mpr ⟨hc, hm⟩, hs⟩

theorem lowerChar_append_iff (afterCased : Bool) (c : Char) (cs behind : List Char) :
    lowerChar afterCased c (cs ++ behind) = lowerChar afterCased c cs ↔
      ¬ (c = 'Σ' ∧ afterCased = true ∧ startsCased behind = true ∧
        ∀ d ∈ cs, isCaselessMark d = true) := by
  by_cases hc : c = 'Σ'
  · subst hc
    rw [lowerChar_sigma, lowerChar_sigma]
    by_cases hm : ∀ d ∈ cs, isCaselessMark d = true
    · rw [startsCased_append_of_marks hm, startsCased_of_marks hm]
      cases afterCased <;> cases startsCased behind <;> simp [eq_true hm]
    · rw [startsCased_append_of_not_marks hm]
      simp [hm]
  · simp [hc, lowerChar_of_ne hc afterCased afterCased (cs ++ behind) cs]

theorem lowerBefore_eq_lowerFrom_iff (afterCased : Bool) (part behind : List Char) :
    lowerBefore afterCased part behind = lowerFrom afterCased part ↔
      ¬ ClosesOnSigma afterCased part behind := by
  induction part generalizing afterCased with
  | nil => exact iff_of_true rfl (not_closesOnSigma_nil afterCased behind)
  | cons c cs ih =>
    rw [lowerBefore, lowerFrom, closesOnSigma_cons, not_or, ← ih, ← lowerChar_append_iff,
      List.append_eq_append_iff_of_size_eq_left (length_lowerChar afterCased afterCased c _ cs)]

/-- A part has in its place the lower-case form that it has on its own, unless it begins or ends with
a sigma that its surroundings turn into the other form. -/
theorem lowerBefore_eq_lower_iff (afterCased : Bool) (part behind : List Char) :
    lowerBefore afterCased part behind = lower part ↔
      ¬ OpensOnSigma afterCased part behind ∧ ¬ ClosesOnSigma false part behind := by
  rw [lower]
  induction part with
  | nil =>
    exact iff_of_true rfl
      ⟨not_opensOnSigma_nil afterCased behind, not_closesOnSigma_nil false behind⟩
  | cons c cs ih =>
    have hl := length_lowerChar afterCased false c (cs ++ behind) cs
    rw [lowerBefore, lowerFrom, List.append_eq_append_iff_of_size_eq_left hl, opensOnSigma_cons,
      closesOnSigma_cons]
    -- behind a mark the part still is at its beginning; any other character makes what is in front of
    -- the part forgotten
    cases hc : isCaselessMark c with
    | true =>
      have hs : c ≠ 'Σ' := by
        rintro rfl
        exact absurd hc (by decide)
      simp [hs, ih, lowerChar_of_ne hs afterCased false (cs ++ behind) cs]
    | false =>
      simp only [Bool.false_eq_true, if_false, lowerBefore_eq_lowerFrom_iff]
      by_cases hs : c = 'Σ'
      · subst hs
        rw [lowerChar_sigma, lowerChar_sigma]
        cases afterCased <;> cases startsCased (cs ++ behind) <;> simp
      · simp [hs, lowerChar_of_ne hs afterCased false (cs ++ behind) cs]

theorem le_of_lowerCode? {runs : List (Nat × Nat × Nat × Int)} {least : Nat}
    (h : ∀ run ∈ runs, (least : Int) ≤ run.1 + run.2.2.2) {n m : Nat}
    (hm : lowerCode? runs n = some m) : least ≤ m := by
  induction runs with
  | nil => cases hm
  | cons run runs ih =>
    obtain ⟨first, last, step, shift⟩ := run
    obtain ⟨hr, ht⟩ := List.forall_mem_cons.mp h
    rw [lowerCode?] at hm
    split at hm
    · cases hm
    split at hm
    · obtain rfl := Option.some.inj hm
      simp only at hr
      omega
    · exact ih ht hm

theorem upperRuns_least : ∀ run ∈ upperRuns, ((0x61 : Nat) : Int) ≤ run.1 + run.2.2.2 := by
  decide +kernel

section Separators

variable {separator : Char} (hs : separator = ' ' ∨ separator = '-')
include hs

theorem lowerChar_separator (afterCased : Bool) (following : List Char) :
    lowerChar afterCased separator following = [separator] := by
  obtain rfl | rfl := hs <;> rfl

theorem eq_of_mem_lowerChar {afterCased : Bool} {c : Char} {following : List Char}
    (h : separator ∈ lowerChar afterCased c following) : c = separator := by
  rw [lowerChar] at h
  split at h
  · obtain rfl | rfl := hs <;> split at h <;> simp at h
  split at h
  · obtain rfl | rfl := hs <;> simp at h
  split at h
  · next n hn =>
    have hl := le_of_lowerCode? upperRuns_least hn
    have he := congrArg Char.toNat (List.mem_singleton.mp h)
    have hv : (Char.ofNat n).toNat = n ∨ (Char.ofNat n).toNat = 0 := by
      by_cases hc : n.isValidChar
      · exact .inl (congrArg Char.toNat (dif_pos hc))
      · exact .inr (congrArg Char.toNat (dif_neg hc))
    have ht : separator.toNat = 0x20 ∨ separator.toNat = 0x2D := by
      obtain rfl | rfl := hs
      · exact .inl rfl
      · exact .inr rfl
    omega
  · exact (List.mem_singleton.mp h).symm

theorem not_mem_lowerFrom {cs : List Char} (h : separator ∉ cs) (afterCased : Bool) :
    separator ∉ lowerFrom afterCased cs := by
  induction cs generalizing afterCased with
  | nil => exact h
  | cons c cs ih =>
    rw [lowerFrom]
    intro hm
    obtain hm | hm := List.mem_append.mp hm
    · exact h (List.mem_cons.mpr (.inl (eq_of_mem_lowerChar hs hm).symm))
    · exact ih (fun ht => h (List.mem_cons_of_mem c ht)) _ hm

theorem separator_not_mark : isCaselessMark separator = false := by
  obtain rfl | rfl := hs <;> decide

theorem separator_not_cased : isCased separator = false := by
  obtain rfl | rfl := hs <;> decide

theorem startsCased_of_separator {cs : List Char} (h : cs = [] ∨ [separator] <+: cs) :
    startsCased cs = false := by
  obtain rfl | ⟨rest, rfl⟩ := h
  · rfl
  · have hm : ¬ isCaselessMark separator = true := by simp [separator_not_mark hs]
    rw [startsCased, List.singleton_append, List.dropWhile_cons_of_neg hm]
    exact separator_not_cased hs

theorem endsCased_of_separator {cs : List Char} (h : cs = [] ∨ [separator] <:+ cs) :
    endsCased false cs = false := by
  obtain rfl | ⟨rest, rfl⟩ := h
  · rfl
  · rw [endsCased_append, endsCased, separator_not_mark hs]
    exact separator_not_cased hs

theorem lowerFrom_of_separator {cs : List Char} (h : cs = [] ∨ [separator] <+: cs)
    (afterCased : Bool) :
    lowerFrom afterCased cs = [] ∨ [separator] <+: lowerFrom afterCased cs := by
  obtain rfl | ⟨rest, rfl⟩ := h
  · exact .inl rfl
  · rw [List.singleton_append, lowerFrom, lowerChar_separator hs]
    exact .inr ⟨_, rfl⟩

theorem lowerBefore_of_separator {cs : List Char} (h : cs = [] ∨ [separator] <:+ cs)
    (afterCased : Bool) (behind : List Char) :
    lowerBefore afterCased cs behind = [] ∨ [separator] <:+ lowerBefore afterCased cs behind := by
  obtain rfl | ⟨rest, rfl⟩ := h
  · exact .inl rfl
  · rw [lowerBefore_append, lowerBefore, lowerBefore, lowerChar_separator hs]
    exact .inr ⟨_, rfl⟩

end Separators

end SyntaxQuery.Text
