import SyntaxQuery.Json.Printer
import SyntaxQuery.Json.Reader
import SyntaxQuery.Proofs.Number.Shortest

namespace SyntaxQuery.Json.Reader

open SyntaxQuery.Number

def EndsNumber (rest : List Char) : Prop :=
  ∀ c ∈ rest.head?, c.isDigit = false ∧ c ≠ '.' ∧ c ≠ 'e' ∧ c ≠ 'E'

variable {ds rest : List Char}

theorem natOf_eq (ds : List Char) : natOf ds = Nat.ofDigitChars 10 ds 0 :=
  Nat.ofDigitChars_eq_foldl.symm

theorem takeDigits_append (hd : ∀ c ∈ ds, c.isDigit = true)
    (hr : ∀ c ∈ rest.head?, c.isDigit = false) : takeDigits (ds ++ rest) = (ds, rest) := by
  have hr' : rest.takeWhile Char.isDigit = [] ∧ rest.dropWhile Char.isDigit = rest := by
    cases rest with
    | nil => exact ⟨rfl, rfl⟩
    | cons c rest =>
      have hc := hr c rfl
      exact ⟨List.takeWhile_cons_of_neg (by simp [hc]), List.dropWhile_cons_of_neg (by simp [hc])⟩
  rw [takeDigits, List.span_eq_takeWhile_dropWhile, List.takeWhile_append_of_pos hd,
    List.dropWhile_append_of_pos hd, hr'.1, hr'.2, List.append_nil]

theorem EndsNumber.readPlaces (h : EndsNumber rest) : readPlaces rest = none := by
  cases rest with
  | nil => rfl
  | cons c rest =>
    obtain ⟨-, hp, -⟩ := h c rfl
    exact readPlaces.eq_2 _ fun cs he => hp (List.cons.inj he).1

theorem EndsNumber.readPower (h : EndsNumber rest) : readPower rest = none := by
  cases rest with
  | nil => rfl
  | cons c rest =>
    obtain ⟨-, -, he, hE⟩ := h c rfl
    simp [Reader.readPower, he, hE]

theorem readWhole_append (hd : ∀ c ∈ ds, c.isDigit = true) (hz : ds.head? ≠ some '0')
    (hne : ds ≠ []) (hr : ∀ c ∈ rest.head?, c.isDigit = false) :
    readWhole (ds ++ rest) = (ds, rest) := by
  cases ds with
  | nil => exact absurd rfl hne
  | cons d ds =>
    have hw : readWhole (d :: ds ++ rest) = takeDigits (d :: ds ++ rest) :=
      readWhole.eq_2 _ fun cs he => hz (congrArg some (List.cons.inj he).1)
    rw [hw, takeDigits_append hd hr]

theorem readNumber_of_whole {cs : List Char} (hne : ds ≠ []) (hw : readWhole cs = (ds, rest))
    (negative : Bool) : readNumber negative cs = readBehind negative ds rest := by
  rw [readNumber, hw]
  cases ds with
  | nil => exact absurd rfl hne
  | cons d ds => rfl

theorem readNumber_digits (negative : Bool) {n : Nat} (hs : (digits n).length ≤ digitLimit)
    (h : EndsNumber rest) :
    readNumber negative (digits n ++ rest) = some (.integer (withSign negative n), rest) := by
  have hn : natOf (digits n) = n := by
    rw [natOf_eq, digits, Nat.ofDigitChars_ten_toDigits]
  have hne : digits n ≠ [] := Nat.toDigits_ne_nil
  have hw : readWhole (digits n ++ rest) = (digits n, rest) := by
    obtain rfl | hpos := Nat.eq_zero_or_pos n
    · rw [digits, Nat.toDigits_zero]
      rfl
    · exact readWhole_append (fun c hc => Nat.isDigit_of_mem_toDigits (by decide) le_rfl hc)
        (head_toDigits hpos) hne fun c hc => (h c hc).1
  rw [readNumber_of_whole hne hw, readBehind, h.readPlaces, h.readPower, hn]
  exact if_pos hs

theorem takeSign_mark {cs : List Char} (negative : Bool) :
    takeSign ((if negative then '-' else '+') :: cs) = (negative, cs) := by
  cases negative <;> rfl

theorem powerText_eq (n : Int) : ∃ ds, powerText n = (if decide (n < 0) then '-' else '+') :: ds ∧
    (∀ c ∈ ds, c.isDigit = true) ∧ ds ≠ [] ∧ natOf ds = n.natAbs := by
  have hd : ∀ c ∈ Nat.toDigits 10 n.natAbs, c.isDigit = true := fun c hc =>
    Nat.isDigit_of_mem_toDigits (by decide) le_rfl hc
  have hn : natOf (Nat.toDigits 10 n.natAbs) = n.natAbs := by
    rw [natOf_eq, Nat.ofDigitChars_ten_toDigits]
  rw [powerText]
  simp only [decide_eq_true_eq]
  split_ifs with _ h
  all_goals first
    | exact ⟨_, rfl, List.forall_mem_cons.mpr ⟨rfl, hd⟩, List.cons_ne_nil _ _, hn⟩
    | exact ⟨_, rfl, hd, Nat.toDigits_ne_nil, hn⟩

theorem readPower_powerText (n : Int) (h : EndsNumber rest) :
    readPower ('e' :: powerText n ++ rest) = some (n, rest) := by
  obtain ⟨ds, hs, hd, hne, hn⟩ := powerText_eq n
  have ht := takeDigits_append hd fun c hc => (h c hc).1
  have hw : withSign (decide (n < 0)) n.natAbs = n := by
    rw [withSign]
    simp only [decide_eq_true_eq]
    split_ifs <;> omega
  rw [hs, List.cons_append, List.cons_append, readPower, if_pos (by decide)]
  simp only [takeSign_mark, ht]
  cases ds with
  | nil => exact absurd rfl hne
  | cons d ds => rw [hn, hw]

theorem readPlaces_append {places : List Char} (hp : ∀ c ∈ places, c.isDigit = true)
    (hne : places ≠ []) (hr : ∀ c ∈ rest.head?, c.isDigit = false) :
    readPlaces ('.' :: (places ++ rest)) = some (places, rest) := by
  rw [readPlaces, takeDigits_append hp hr]
  cases places with
  | nil => exact absurd rfl hne
  | cons d places => rfl

theorem readBehind_places (negative : Bool) (ds : List Char) {places : List Char}
    (hp : ∀ c ∈ places, c.isDigit = true) (hne : places ≠ []) (h : EndsNumber rest) :
    readBehind negative ds ('.' :: (places ++ rest)) =
      some (.real (.ofDecimal negative (natOf (ds ++ places)) (0 - places.length)), rest) := by
  rw [readBehind, readPlaces_append hp hne fun c hc => (h c hc).1]
  simp only [h.readPower, Option.getD_none]

theorem readBehind_power (negative : Bool) (ds : List Char) (n : Int) (h : EndsNumber rest) :
    readBehind negative ds ('e' :: powerText n ++ rest) =
      some (.real (.ofDecimal negative (natOf ds) n), rest) := by
  have hp : readPlaces ('e' :: powerText n ++ rest) = none := rfl
  rw [readBehind, hp]
  simp only [readPower_powerText n h]

theorem readBehind_places_power (negative : Bool) (ds : List Char) {places : List Char}
    (hp : ∀ c ∈ places, c.isDigit = true) (hne : places ≠ []) (n : Int) (h : EndsNumber rest) :
    readBehind negative ds ('.' :: (places ++ ('e' :: powerText n ++ rest))) =
      some (.real (.ofDecimal negative (natOf (ds ++ places)) (n - places.length)), rest) := by
  rw [readBehind, readPlaces_append hp hne (by rintro c ⟨⟩; rfl)]
  simp only [readPower_powerText n h, Option.getD_some]

variable {f : Fraction}

def ReadsAs (negative : Bool) (f : Fraction) (cs rest : List Char) : Prop :=
  ∃ digits : Nat, ∃ scale : Int,
    readNumber negative cs = some (.real (.ofDecimal negative digits scale), rest) ∧
      (digits : ℚ) * 10 ^ scale = f.value

theorem readsAs_power (hf : f.IsNormal) (negative : Bool) (h : EndsNumber rest) :
    ReadsAs negative f (f.digits.take 1 ++
      (if f.digits.length > 1 then '.' :: f.digits.drop 1 else []) ++
      'e' :: powerText (f.point - 1) ++ rest) rest := by
  obtain ⟨hd, hne, hz⟩ := hf
  rw [ReadsAs, Fraction.value]
  generalize f.point = point
  generalize f.digits = ds at *
  cases ds with
  | nil => exact absurd rfl hne
  | cons d ds =>
    obtain ⟨hd1, hds⟩ := List.forall_mem_cons.mp hd
    have hw (rest : List Char) (hr : ∀ c ∈ rest.head?, c.isDigit = false) :
        readWhole ([d] ++ rest) = ([d], rest) :=
      readWhole_append (by simpa using hd1) hz (List.cons_ne_nil _ _) hr
    by_cases hl : ds = []
    · subst hl
      refine ⟨natOf [d], point - 1, ?_, by rw [natOf_eq]; rfl⟩
      rw [← readBehind_power negative [d] (point - 1) h]
      exact readNumber_of_whole (List.cons_ne_nil _ _) (hw _ (by rintro c ⟨⟩; rfl)) negative
    · refine ⟨natOf ([d] ++ ds), point - 1 - ds.length, ?_, ?_⟩
      · have hl' : (d :: ds).length > 1 := Nat.succ_lt_succ (List.length_pos_of_ne_nil hl)
        rw [← readBehind_places_power negative [d] hds hl (point - 1) h, if_pos hl',
          List.append_assoc, List.append_assoc]
        exact readNumber_of_whole (List.cons_ne_nil _ _) (hw _ (by rintro c ⟨⟩; rfl)) negative
      · rw [natOf_eq, List.singleton_append, List.length_cons]
        congr 2
        push_cast
        ring

theorem readsAs_zeros (hf : f.IsNormal) (hp : f.point ≤ 0) (negative : Bool) (h : EndsNumber rest) :
    ReadsAs negative f ('0' :: '.' :: List.replicate (-f.point).toNat '0' ++ f.digits ++ rest)
      rest := by
  obtain ⟨hd, hne, hz⟩ := hf
  rw [ReadsAs, Fraction.value]
  generalize f.point = point at *
  generalize f.digits = ds at *
  let places := List.replicate (-point).toNat '0' ++ ds
  have hds : ∀ c ∈ places, c.isDigit = true := by
    intro c hc
    obtain hc | hc := List.mem_append.mp hc
    · rw [List.eq_of_mem_replicate hc]
      rfl
    · exact hd c hc
  refine ⟨natOf (['0'] ++ places), 0 - places.length, ?_, ?_⟩
  · rw [← readBehind_places negative ['0'] hds (List.append_ne_nil_of_right_ne_nil _ hne) h]
    exact readNumber_of_whole (List.cons_ne_nil _ _) rfl negative
  · have hn : natOf (['0'] ++ places) = Nat.ofDigitChars 10 ds 0 := by
      rw [natOf_eq, Nat.ofDigitChars_append, Nat.ofDigitChars_append,
        Nat.ofDigitChars_replicate_zero]
      rfl
    rw [hn, List.length_append, List.length_replicate]
    congr 2
    push_cast
    omega

theorem readsAs_whole (hf : f.IsNormal) (hp : f.digits.length ≤ f.point.toNat) (negative : Bool)
    (h : EndsNumber rest) :
    ReadsAs negative f (f.digits ++ List.replicate (f.point.toNat - f.digits.length) '0' ++
      ['.', '0'] ++ rest) rest := by
  obtain ⟨hd, hne, hz⟩ := hf
  rw [ReadsAs, Fraction.value]
  generalize f.point = point at *
  generalize f.digits = ds at *
  let whole := ds ++ List.replicate (point.toNat - ds.length) '0'
  have hw : ∀ c ∈ whole, c.isDigit = true := by
    intro c hc
    obtain hc | hc := List.mem_append.mp hc
    · exact hd c hc
    · rw [List.eq_of_mem_replicate hc]
      rfl
  have hwne : whole ≠ [] := List.append_ne_nil_of_left_ne_nil hne _
  have hp0 : ∀ c ∈ ['0'], c.isDigit = true := by simp
  refine ⟨natOf (whole ++ ['0']), 0 - ['0'].length, ?_, ?_⟩
  · rw [← readBehind_places negative whole hp0 (List.cons_ne_nil _ _) h, List.append_assoc]
    refine readNumber_of_whole hwne (readWhole_append hw ?_ hwne (by rintro c ⟨⟩; rfl)) negative
    rwa [List.head?_append_of_ne_nil _ hne]
  · have hn : natOf (whole ++ ['0']) =
        10 ^ (point.toNat - ds.length + 1) * Nat.ofDigitChars 10 ds 0 := by
      rw [natOf_eq, List.append_assoc, ← List.replicate_succ', Nat.ofDigitChars_append,
        Nat.ofDigitChars_replicate_zero]
    have hl := List.length_pos_of_ne_nil hne
    have he : point - ds.length = (point.toNat - ds.length + 1 : Nat) + (0 - (['0'].length : Int)) := by
      rw [List.length_singleton]
      omega
    rw [hn, he, zpow_add₀ (by norm_num), zpow_natCast]
    push_cast
    ring

theorem readsAs_both (hf : f.IsNormal) (hp : 0 < f.point) (hl : f.point.toNat < f.digits.length)
    (negative : Bool) (h : EndsNumber rest) :
    ReadsAs negative f (f.digits.take f.point.toNat ++ '.' :: f.digits.drop f.point.toNat ++ rest)
      rest := by
  obtain ⟨hd, hne, hz⟩ := hf
  rw [ReadsAs, Fraction.value]
  generalize f.point = point at *
  generalize f.digits = ds at *
  have hw : ∀ c ∈ ds.take point.toNat, c.isDigit = true := fun c hc => hd c (List.mem_of_mem_take hc)
  have hds : ∀ c ∈ ds.drop point.toNat, c.isDigit = true := fun c hc => hd c (List.mem_of_mem_drop hc)
  have hwne : ds.take point.toNat ≠ [] := by
    rw [← List.length_pos_iff, List.length_take]
    omega
  have hdne : ds.drop point.toNat ≠ [] := by
    rw [← List.length_pos_iff, List.length_drop]
    omega
  refine ⟨natOf (ds.take point.toNat ++ ds.drop point.toNat), 0 - (ds.drop point.toNat).length,
    ?_, ?_⟩
  · rw [← readBehind_places negative _ hds hdne h, List.append_assoc]
    refine readNumber_of_whole hwne (readWhole_append hw ?_ hwne (by rintro c ⟨⟩; rfl)) negative
    rwa [← List.head?_append_of_ne_nil _ hwne, List.take_append_drop]
  · rw [List.take_append_drop, natOf_eq, List.length_drop]
    congr 2
    omega

/-- The text of a fraction is read back as the fraction. -/
theorem readsAs_text (hf : f.IsNormal) (negative : Bool) (h : EndsNumber rest) :
    ReadsAs negative f (f.text ++ rest) rest := by
  rw [Fraction.text]
  split
  · exact readsAs_power hf negative h
  split
  · exact readsAs_zeros hf ‹_› negative h
  split
  · exact readsAs_whole hf ‹_› negative h
  · refine readsAs_both hf ?_ ?_ negative h <;> omega

def BeginsAmount (cs : List Char) : Prop :=
  ∃ c ∈ cs.head?, c.isDigit = true ∨ c = 'I'

theorem BeginsAmount.cons {cs : List Char} (h : BeginsAmount cs) :
    ∃ c cs', cs = c :: cs' ∧ (c.isDigit = true ∨ c = 'I') := by
  obtain ⟨c, hc, hd⟩ := h
  cases cs with
  | nil => cases hc
  | cons d cs =>
    obtain rfl := Option.some.inj hc
    exact ⟨d, cs, rfl, hd⟩

theorem BeginsAmount.append {cs : List Char} (h : BeginsAmount cs) (rest : List Char) :
    BeginsAmount (cs ++ rest) := by
  obtain ⟨c, hc, hd⟩ := h
  exact ⟨c, List.mem_head?_append_of_mem_head? hc, hd⟩

theorem readAmount_of_digit (negative : Bool) {cs : List Char}
    (h : ∃ c ∈ cs.head?, c.isDigit = true) : readAmount negative cs = readNumber negative cs := by
  obtain ⟨c, hc, hd⟩ := h
  rw [readAmount, if_neg]
  cases cs with
  | nil => cases hc
  | cons d cs =>
    obtain rfl := Option.some.inj hc
    intro hi
    obtain ⟨hi, -⟩ := Bool.and_eq_true_iff.mp hi
    rw [← eq_of_beq hi] at hd
    cases hd

theorem head_text (hf : f.IsNormal) : ∃ c ∈ f.text.head?, c.isDigit = true := by
  obtain ⟨hd, hne, -⟩ := hf
  rw [Fraction.text]
  generalize f.digits = ds at *
  cases ds with
  | nil => exact absurd rfl hne
  | cons d ds =>
    have hd1 := hd d List.mem_cons_self
    split
    · exact ⟨d, rfl, hd1⟩
    split
    · exact ⟨'0', rfl, rfl⟩
    split
    · exact ⟨d, rfl, hd1⟩
    · refine ⟨d, ?_, hd1⟩
      cases hp : f.point.toNat with
      | zero => omega
      | succ k => rfl

/-- The text of a double is read back as the double, whatever its sign. -/
theorem writeReal_eq {x : Double} (h : x.isNaN = false) :
    ∃ cs, writeReal x = (if x.negative then ['-'] else []) ++ cs ∧ BeginsAmount cs ∧
      ∀ rest, EndsNumber rest → readAmount x.negative (cs ++ rest) = some (.real x, rest) := by
  rw [writeReal, if_neg (by rw [h]; exact Bool.false_ne_true)]
  by_cases hi : x.isInfinite = true
  · rw [if_pos hi]
    refine ⟨infinityName, rfl, ⟨'I', rfl, .inr rfl⟩, fun rest _ => ?_⟩
    rw [readAmount, if_pos (by simp), Double.infinity_eq hi, List.drop_left]
  rw [Bool.not_eq_true] at hi
  have hx := Double.field_lt h hi
  have ht : x.text = (if x.negative then ['-'] else []) ++
      if x.isZero then ['0', '.', '0'] else x.shortest.text := by
    simp [Double.text, h, hi]
  rw [if_neg (by rw [hi]; exact Bool.false_ne_true), ht]
  by_cases hz : x.isZero = true
  · rw [if_pos hz]
    rw [Double.isZero, decide_eq_true_eq] at hz
    refine ⟨['0', '.', '0'], rfl, ⟨'0', rfl, .inl rfl⟩, fun rest hr => ?_⟩
    have hp0 : ∀ c ∈ ['0'], c.isDigit = true := by simp
    rw [readAmount_of_digit _ ⟨'0', rfl, rfl⟩]
    have hb := readBehind_places x.negative ['0'] hp0 (List.cons_ne_nil _ _) hr
    have hn : natOf (['0'] ++ ['0']) = 0 := rfl
    rw [hn, Double.ofDecimal_zero hz] at hb
    rw [← hb]
    exact readNumber_of_whole (List.cons_ne_nil _ _) rfl _
  · rw [if_neg hz]
    rw [Double.isZero, decide_eq_true_eq] at hz
    obtain ⟨hf, hq⟩ := Double.near_shortest hz
    obtain ⟨c, hc, hd⟩ := head_text hf
    refine ⟨x.shortest.text, rfl, ⟨c, hc, .inl hd⟩, fun rest hr => ?_⟩
    obtain ⟨digits, scale, hn, hv⟩ := readsAs_text hf x.negative hr
    rw [readAmount_of_digit, hn, Double.Near.ofDecimal_eq hx hz (hv ▸ hq)]
    exact ⟨c, List.mem_head?_append_of_mem_head? hc, hd⟩

end SyntaxQuery.Json.Reader
