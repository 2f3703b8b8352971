import Mathlib.Data.List.TakeDrop
import Mathlib.Tactic.SplitIfs
import SyntaxQuery.Proofs.Selector.Names

namespace SyntaxQuery.Selector

inductive IsMagnitude : List Char → Prop where
  | whole {ds : List Char} (hd : ds.all Char.isDigit = true) (hne : ds ≠ []) : IsMagnitude ds
  | point {ds ps : List Char} (hd : ds.all Char.isDigit = true) (hp : ps.all Char.isDigit = true)
      (hne : ps ≠ []) : IsMagnitude (ds ++ '.' :: ps)

inductive IsNumber : List Char → Prop where
  | unsigned {cs : List Char} (h : IsMagnitude cs) : IsNumber cs
  | signed {c : Char} {cs : List Char} (hc : c = '+' ∨ c = '-') (h : IsMagnitude cs) :
      IsNumber (c :: cs)

theorem IsMagnitude.mem {cs : List Char} (h : IsMagnitude cs) {c : Char} (hc : c ∈ cs) :
    c.isDigit = true ∨ c = '.' := by
  cases h with
  | whole hd => exact .inl (List.all_eq_true.mp hd c hc)
  | point hd hp =>
    obtain hc | hc := List.mem_append.mp hc
    · exact .inl (List.all_eq_true.mp hd c hc)
    · exact (List.mem_cons.mp hc).elim .inr fun hc => .inl (List.all_eq_true.mp hp c hc)

theorem IsNumber.mem {cs : List Char} (h : IsNumber cs) {c : Char} (hc : c ∈ cs) :
    c.isDigit = true ∨ c ∈ ['.', '+', '-'] := by
  cases h with
  | unsigned h => exact (h.mem hc).imp_right fun h => by simp [h]
  | signed hs h =>
    obtain rfl | hc := List.mem_cons.mp hc
    · obtain rfl | rfl := hs <;> exact .inr (by decide)
    · exact (h.mem hc).imp_right fun h => by simp [h]

def placesLength : List Char → Nat
  | '.' :: cs => digitRun cs
  | _ => 0

def magnitudeLength (cs : List Char) : Nat :=
  let whole := digitRun cs
  let places := placesLength (cs.drop whole)
  if places ≠ 0 then whole + 1 + places else whole

theorem numberLength_signed {c : Char} (hc : c = '+' ∨ c = '-') (cs : List Char) :
    numberLength (c :: cs) = if magnitudeLength cs = 0 then 0 else magnitudeLength cs + 1 := by
  have hs : (decide (c = '+') || decide (c = '-')) = true := by simpa using hc
  have e : numberLength (c :: cs) =
      if placesLength (cs.drop (digitRun cs)) ≠ 0 then
        1 + digitRun cs + 1 + placesLength (cs.drop (digitRun cs))
      else if digitRun cs ≠ 0 then 1 + digitRun cs else 0 := by
    simp only [numberLength, hs, if_true]
    rfl
  rw [e, magnitudeLength]
  split_ifs <;> omega

theorem numberLength_unsigned {cs : List Char} (h : ∀ c ∈ cs.head?, c ≠ '+' ∧ c ≠ '-') :
    numberLength cs = magnitudeLength cs := by
  cases cs with
  | nil => rfl
  | cons c cs =>
    obtain ⟨hp, hm⟩ := h c rfl
    have hs : (decide (c = '+') || decide (c = '-')) = false := by simp [hp, hm]
    have e : numberLength (c :: cs) =
        if placesLength ((c :: cs).drop (digitRun (c :: cs))) ≠ 0 then
          0 + digitRun (c :: cs) + 1 + placesLength ((c :: cs).drop (digitRun (c :: cs)))
        else if digitRun (c :: cs) ≠ 0 then 0 + digitRun (c :: cs) else 0 := by
      simp only [numberLength, hs]
      rfl
    rw [e, magnitudeLength]
    split_ifs <;> omega

theorem digitRun_of_head {cs : List Char} (h : ∀ c ∈ cs.head?, c.isDigit = false) :
    digitRun cs = 0 := by
  cases cs with
  | nil => rfl
  | cons c cs => rw [digitRun, List.takeWhile_cons_of_neg (by simp [h c rfl]), List.length_nil]

theorem digitRun_append {ds rest : List Char} (hd : ds.all Char.isDigit = true)
    (hr : ∀ c ∈ rest.head?, c.isDigit = false) : digitRun (ds ++ rest) = ds.length := by
  have hz := digitRun_of_head hr
  rw [digitRun] at hz ⊢
  rw [List.takeWhile_append_of_pos (fun c hc => List.all_eq_true.mp hd c hc), List.length_append,
    hz, Nat.add_zero]

def EndsNumber (cs : List Char) : Prop :=
  ∀ c ∈ cs.head?, c.isDigit = false ∧ c ≠ '.'

theorem placesLength_endsNumber {cs : List Char} (h : EndsNumber cs) : placesLength cs = 0 := by
  unfold placesLength
  split
  · exact absurd rfl (h '.' rfl).2
  · rfl

theorem magnitudeLength_append {m rest : List Char} (hm : IsMagnitude m) (hr : EndsNumber rest) :
    magnitudeLength (m ++ rest) = m.length := by
  have hd : ∀ c ∈ rest.head?, c.isDigit = false := fun c hc => (hr c hc).1
  cases hm with
  | whole hds hne =>
    simp only [magnitudeLength, digitRun_append hds hd, List.drop_left, placesLength_endsNumber hr]
    rfl
  | @point ds ps hds hps hne =>
    have hw : digitRun (ds ++ '.' :: (ps ++ rest)) = ds.length :=
      digitRun_append hds (by simp)
    have hp : ps.length ≠ 0 := fun h => hne (List.length_eq_zero_iff.mp h)
    simp only [magnitudeLength, placesLength, List.append_assoc, List.cons_append, hw,
      List.drop_left, digitRun_append hps hd, if_pos hp, List.length_append, List.length_cons]
    omega

theorem IsNumber.ne_nil {cs : List Char} (h : IsNumber cs) : cs ≠ [] := by
  cases h with
  | unsigned h => cases h <;> simp_all
  | signed => exact List.cons_ne_nil _ _

theorem IsMagnitude.head {m : List Char} (hm : IsMagnitude m) (rest : List Char) :
    ∃ c cs, m ++ rest = c :: cs ∧ (c.isDigit = true ∨ c = '.') := by
  cases hm with
  | whole hd hne =>
    obtain ⟨c, cs, rfl⟩ := List.exists_cons_of_ne_nil hne
    exact ⟨c, _, rfl, .inl (List.all_eq_true.mp hd c List.mem_cons_self)⟩
  | @point ds ps hd hp hne =>
    cases ds with
    | nil => exact ⟨'.', _, rfl, .inr rfl⟩
    | cons c cs => exact ⟨c, _, rfl, .inl (List.all_eq_true.mp hd c List.mem_cons_self)⟩

theorem numberLength_append {text rest : List Char} (ht : IsNumber text) (hr : EndsNumber rest) :
    numberLength (text ++ rest) = text.length := by
  cases ht with
  | unsigned hm =>
    obtain ⟨c, cs, e, hc⟩ := hm.head rest
    have hs : ∀ d ∈ (text ++ rest).head?, d ≠ '+' ∧ d ≠ '-' := by
      rw [e]
      refine forall_head ?_
      constructor <;> rintro rfl <;> revert hc <;> decide
    rw [numberLength_unsigned hs, magnitudeLength_append hm hr]
  | signed hc hm =>
    obtain ⟨d, ds, e, -⟩ := hm.head []
    rw [List.append_nil] at e
    rw [List.cons_append, numberLength_signed hc, magnitudeLength_append hm hr, if_neg (by simp [e]),
      List.length_cons]

theorem take_digitRun (cs : List Char) : (cs.take (digitRun cs)).all Char.isDigit = true := by
  rw [digitRun, ← List.prefix_iff_eq_take.mp (List.takeWhile_prefix Char.isDigit)]
  exact List.all_takeWhile

theorem digitRun_le (cs : List Char) : digitRun cs ≤ cs.length :=
  (List.takeWhile_prefix _).length_le

theorem isMagnitude_take {cs : List Char} (h : magnitudeLength cs ≠ 0) :
    IsMagnitude (cs.take (magnitudeLength cs)) := by
  have hw := take_digitRun cs
  have hl := digitRun_le cs
  have hs := List.take_append_drop (digitRun cs) cs
  unfold magnitudeLength at h ⊢
  dsimp only at h ⊢
  generalize digitRun cs = n at *
  split at h
  · rename_i hp
    rw [if_pos hp]
    generalize cs.drop n = ds at hs hp
    unfold placesLength at hp ⊢
    split at hp
    · rename_i more
      have hn : (cs.take n).length = n := List.length_take_of_le hl
      have hc : cs.take (n + 1 + digitRun more) = cs.take n ++ '.' :: more.take (digitRun more) := by
        nth_rewrite 1 [← hs]
        rw [List.take_append, hn, List.take_of_length_le (by omega), Nat.add_assoc,
          Nat.add_sub_cancel_left, Nat.add_comm 1, List.take_succ_cons]
      rw [hc]
      refine .point hw (take_digitRun more) fun h0 => hp ?_
      rw [← List.length_take_of_le (digitRun_le more), h0, List.length_nil]
    · exact absurd rfl hp
  · rename_i hp
    rw [if_neg hp]
    refine .whole hw fun h0 => h ?_
    rw [← List.length_take_of_le hl, h0, List.length_nil]

theorem isNumber_take {cs : List Char} (h : numberLength cs ≠ 0) :
    IsNumber (cs.take (numberLength cs)) := by
  cases cs with
  | nil => exact absurd rfl h
  | cons c cs =>
    by_cases hc : c = '+' ∨ c = '-'
    · rw [numberLength_signed hc] at h ⊢
      have hm : magnitudeLength cs ≠ 0 := fun h0 => h (if_pos h0)
      rw [if_neg hm, List.take_succ_cons]
      exact .signed hc (isMagnitude_take hm)
    · have hs : numberLength (c :: cs) = magnitudeLength (c :: cs) :=
        numberLength_unsigned (forall_head (not_or.mp hc))
      rw [hs] at h ⊢
      exact .unsigned (isMagnitude_take h)

end SyntaxQuery.Selector
