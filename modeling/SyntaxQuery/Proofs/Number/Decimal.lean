import SyntaxQuery.Number.Integer

namespace SyntaxQuery.Number

open SyntaxQuery.Text

variable {c : Char} {ds : List Char}

theorem code_of_isDigit (h : c.isDigit = true) : 48 ≤ c.toNat ∧ c.toNat ≤ 57 := by
  rw [Char.isDigit, Bool.and_eq_true, decide_eq_true_iff, decide_eq_true_iff] at h
  exact h

theorem digitValue?_of_isDigit (h : c.isDigit = true) : digitValue? c = some (c.toNat - 48) := by
  obtain ⟨hl, hu⟩ := code_of_isDigit h
  have hz : zeros = 48 :: zeros.tail := rfl
  rw [digitValue?, hz, List.find?_cons_of_pos]
  · rfl
  · rw [Bool.and_eq_true, decide_eq_true_iff, decide_eq_true_iff]
    omega

theorem isSpace_of_isDigit (h : c.isDigit = true) : isSpace c = false := by
  obtain ⟨hl, hu⟩ := code_of_isDigit h
  rw [isSpace, spaceRanges]
  simp only [inRanges]
  grind

theorem isDigit_of_mem_digits {n : Nat} (h : c ∈ digits n) : c.isDigit = true :=
  Nat.isDigit_of_mem_toDigits (by decide) (by decide) h

theorem ofDigits?_of_isDigit (h : ∀ c ∈ ds, c.isDigit = true) (n : Nat) :
    ofDigits? n ds = some (Nat.ofDigitChars 10 ds n) := by
  induction ds generalizing n with
  | nil => rfl
  | cons c ds ih =>
    obtain ⟨hc, hr⟩ := List.forall_mem_cons.mp h
    rw [ofDigits?, digitValue?_of_isDigit hc, Option.bind_some, ih hr]
    rfl

theorem ungroup?_of_isDigit (h : ∀ c ∈ ds, c.isDigit = true) (hne : ds ≠ []) :
    ungroup? ds = some ds := by
  have hu : ∀ c, c.isDigit = true → c ≠ '_' := by
    rintro c hc rfl
    cases hc
  induction ds with
  | nil => exact absurd rfl hne
  | cons c ds ih =>
    obtain ⟨hc, hr⟩ := List.forall_mem_cons.mp h
    cases ds with
    | nil => rw [ungroup?, if_neg (hu c hc)]
    | cons d ds =>
      have hd : d ≠ '_' := hu d (hr d List.mem_cons_self)
      rw [ungroup?.eq_4, ih hr (List.cons_ne_nil _ _)]
      · rfl
      · nofun
      · rintro cs he
        exact hd (List.cons.inj he).1

theorem digits_read_back {n : Nat} (h : (digits n).length ≤ digitLimit) (negative : Bool) :
    ((ungroup? (digits n)).bind fun ds =>
      if ds.length ≤ digitLimit then (ofDigits? 0 ds).map (withSign negative) else none) =
      some (withSign negative n) := by
  have hd : ∀ c ∈ digits n, c.isDigit = true := fun c => isDigit_of_mem_digits
  rw [ungroup?_of_isDigit hd Nat.toDigits_ne_nil, Option.bind_some, if_pos h,
    ofDigits?_of_isDigit hd, digits, Nat.ofDigitChars_ten_toDigits]
  rfl

theorem trim_eq_self {cs : List Char} (h : ∀ c ∈ cs, isSpace c = false) :
    ((cs.dropWhile isSpace).reverse.dropWhile isSpace).reverse = cs := by
  have hd : ∀ cs : List Char, (∀ c ∈ cs, isSpace c = false) → cs.dropWhile isSpace = cs := by
    intro cs h
    cases cs with
    | nil => rfl
    | cons c cs => exact List.dropWhile_cons_of_neg (by simp [h c List.mem_cons_self])
  rw [hd cs h, hd cs.reverse fun c hc => h c (List.mem_reverse.mp hc), List.reverse_reverse]

theorem takeSign_of_ne (hm : c ≠ '-') (hp : c ≠ '+') (cs : List Char) :
    takeSign (c :: cs) = (false, c :: cs) := by
  rw [takeSign.eq_3]
  · rintro ds hc
    exact hm (List.cons.inj hc).1
  · rintro ds hc
    exact hp (List.cons.inj hc).1

theorem takeSign_digits (n : Nat) : takeSign (digits n) = (false, digits n) := by
  obtain ⟨d, ds, he⟩ := List.exists_cons_of_ne_nil (Nat.toDigits_ne_nil (b := 10) (n := n))
  -- a sign is no digit, so there is none to take
  have hd : d.isDigit = true := isDigit_of_mem_digits (he ▸ List.mem_cons_self)
  rw [digits, he]
  refine takeSign_of_ne ?_ ?_ ds
  · rintro rfl
    cases hd
  · rintro rfl
    cases hd

theorem wholeInteger?_decimal {i : Int} (h : isShort i = true) :
    wholeInteger? (decimal i) = some i := by
  have hs : ∀ n, ∀ c ∈ digits n, isSpace c = false := fun n c hc =>
    isSpace_of_isDigit (isDigit_of_mem_digits hc)
  have hl : (digits i.natAbs).length ≤ digitLimit := of_decide_eq_true h
  cases i with
  | ofNat n =>
    rw [wholeInteger?, decimal, trim_eq_self (hs n), takeSign_digits]
    exact digits_read_back hl false
  | negSucc n =>
    rw [wholeInteger?, decimal, trim_eq_self (List.forall_mem_cons.mpr ⟨rfl, hs (n + 1)⟩), takeSign]
    exact digits_read_back hl true

theorem decimal_ne_nil (n : Int) : decimal n ≠ [] := by
  cases n with
  | ofNat n => exact Nat.toDigits_ne_nil
  | negSucc n => exact List.cons_ne_nil _ _

theorem not_mem_digits (hc : c.isDigit = false) (n : Nat) : c ∉ digits n := by
  intro h
  rw [isDigit_of_mem_digits h] at hc
  cases hc

theorem digits_injective {n k : Nat} (h : digits n = digits k) : n = k := by
  have he := congrArg (Nat.ofDigitChars 10 · 0) h
  simpa only [digits, Nat.ofDigitChars_ten_toDigits] using he

theorem decimal_injective {n k : Int} (h : decimal n = decimal k) : n = k := by
  have hd : ∀ n k, digits n ≠ '-' :: digits k := fun n k he =>
    not_mem_digits rfl n (he ▸ List.mem_cons_self)
  cases n with
  | ofNat n =>
    cases k with
    | ofNat k => exact congrArg Int.ofNat (digits_injective h)
    | negSucc k => exact absurd h (hd n (k + 1))
  | negSucc n =>
    cases k with
    | ofNat k => exact absurd h.symm (hd k (n + 1))
    | negSucc k =>
      have he := digits_injective (List.cons.inj h).2
      rw [Nat.succ.inj he]

theorem lt_of_isDigit (h : c.isDigit = true) : ' ' < c := by
  obtain ⟨hl, -⟩ := code_of_isDigit h
  exact Nat.lt_of_lt_of_le (by decide) hl

theorem lt_of_mem_digits (n : Nat) : ∀ c ∈ digits n, ' ' < c :=
  fun _ h => lt_of_isDigit (isDigit_of_mem_digits h)

theorem lt_of_mem_decimal (n : Int) : ∀ c ∈ decimal n, ' ' < c := by
  cases n with
  | ofNat n => exact lt_of_mem_digits n
  | negSucc n => exact List.forall_mem_cons.mpr ⟨by decide, lt_of_mem_digits (n + 1)⟩

theorem blank_not_mem_decimal (n : Int) : ' ' ∉ decimal n :=
  fun h => absurd (lt_of_mem_decimal n _ h) (by decide)

theorem dash_not_mem_tail_decimal (n : Int) : '-' ∉ (decimal n).tail := by
  have h : ∀ n, '-' ∉ digits n := not_mem_digits rfl
  cases n with
  | ofNat n => exact fun hm => h n (List.mem_of_mem_tail hm)
  | negSucc n => exact h (n + 1)

end SyntaxQuery.Number
