import Mathlib
import SyntaxQuery.Number.Shortest
import SyntaxQuery.Proofs.Number.Decimal
import SyntaxQuery.Proofs.Number.Rounding

namespace SyntaxQuery.Number

theorem zerosBehindPoint_spec {fuel n d : Nat} (h : n < d) (hf : d ≤ n * 10 ^ fuel) :
    n * 10 ^ zerosBehindPoint fuel n d < d ∧ d ≤ n * 10 ^ (zerosBehindPoint fuel n d + 1) := by
  induction fuel generalizing n with
  | zero =>
    rw [pow_zero, mul_one] at hf
    omega
  | succ fuel ih =>
    rw [zerosBehindPoint]
    split_ifs with hn
    · rw [pow_succ', ← mul_assoc] at hf
      obtain ⟨hl, hu⟩ := ih hn hf
      rw [pow_succ', ← mul_assoc, pow_succ' 10 (_ + 1), ← mul_assoc]
      exact ⟨hl, hu⟩
    · rw [pow_zero, mul_one, zero_add, pow_one]
      exact ⟨h, not_lt.mp hn⟩

theorem leadingPoint_bounds {n d : Nat} (hd : 0 < d) (hf : d ≤ n * 10 ^ 400) :
    (10 : ℚ) ^ (leadingPoint n d - 1) ≤ n / d ∧ (n / d : ℚ) < 10 ^ leadingPoint n d := by
  have hd' : (0 : ℚ) < d := Nat.cast_pos.mpr hd
  rw [leadingPoint]
  split_ifs with h
  · obtain ⟨hl, hu⟩ := zerosBehindPoint_spec h hf
    generalize zerosBehindPoint 400 n d = z at hl hu
    have hl' : (n : ℚ) * 10 ^ z < d := by exact_mod_cast hl
    have hu' : (d : ℚ) ≤ n * 10 ^ (z + 1) := by exact_mod_cast hu
    constructor
    · rw [show -(z : Int) - 1 = -((z + 1 : Nat) : Int) by push_cast; ring, zpow_neg, zpow_natCast,
        le_div_iff₀ hd', inv_mul_le_iff₀ (by positivity), mul_comm]
      exact hu'
    · rw [zpow_neg, zpow_natCast, div_lt_iff₀ hd', lt_inv_mul_iff₀ (by positivity), mul_comm]
      exact hl'
  · have hq : 0 < n / d := Nat.div_pos (not_lt.mp h) hd
    obtain ⟨hl, hu⟩ := Double.toDigits_bounds hq
    have hp := Nat.length_toDigits_pos (b := 10) (n := n / d)
    generalize (Nat.toDigits 10 (n / d)).length = k at hl hu hp
    rw [Nat.le_div_iff_mul_le hd] at hl
    rw [Nat.div_lt_iff_lt_mul hd] at hu
    constructor
    · rw [show (k : Int) - 1 = (k - 1 : Nat) by omega, zpow_natCast, le_div_iff₀ hd']
      exact_mod_cast hl
    · rw [zpow_natCast, div_lt_iff₀ hd']
      exact_mod_cast hu

theorem head_toDigits {n : Nat} (hn : 0 < n) : (Nat.toDigits 10 n).head? ≠ some '0' := by
  induction n using Nat.strongRecOn with
  | ind n ih =>
    rw [Nat.toDigits_eq_if (by decide)]
    split_ifs with h
    · interval_cases n <;> decide
    · rw [List.head?_append_of_ne_nil _ Nat.toDigits_ne_nil]
      exact ih (n / 10) (by omega) (by omega)

theorem exists_zeros (ds : List Char) : ∃ zeros : Nat,
    ds = (ds.reverse.dropWhile (· = '0')).reverse ++ List.replicate zeros '0' := by
  have h := List.takeWhile_append_dropWhile (p := (· = '0')) (l := ds.reverse)
  have hr : ds.reverse.takeWhile (· = '0') =
      List.replicate (ds.reverse.takeWhile (· = '0')).length '0' :=
    List.eq_replicate_of_mem fun c hc => by simpa using List.mem_takeWhile_imp hc
  refine ⟨(ds.reverse.takeWhile (· = '0')).length, ?_⟩
  rw [← List.reverse_replicate, ← hr, ← List.reverse_append, h, List.reverse_reverse]

def Fraction.value (f : Fraction) : ℚ :=
  Nat.ofDigitChars 10 f.digits 0 * 10 ^ (f.point - f.digits.length)

structure Fraction.IsNormal (f : Fraction) : Prop where
  digits : ∀ c ∈ f.digits, c.isDigit = true
  ne_nil : f.digits ≠ []
  head : f.digits.head? ≠ some '0'

theorem normal_trim {n : Nat} (hn : 0 < n) (place : Int) :
    let ds := Nat.toDigits 10 n
    let f : Fraction := ⟨(ds.reverse.dropWhile (· = '0')).reverse, place + ds.length⟩
    f.IsNormal ∧ f.value = n * 10 ^ place := by
  intro ds f
  obtain ⟨zeros, hz⟩ := exists_zeros ds
  have hd : ds = f.digits ++ List.replicate zeros '0' := hz
  have hv : n = 10 ^ zeros * Nat.ofDigitChars 10 f.digits 0 := by
    rw [← Nat.ofDigitChars_replicate_zero, ← Nat.ofDigitChars_append, ← hd,
      Nat.ofDigitChars_ten_toDigits]
  have hne : f.digits ≠ [] := by
    intro h
    rw [h, Nat.ofDigitChars_nil, mul_zero] at hv
    exact hn.ne' hv
  have hl : (ds.length : Int) = f.digits.length + zeros := by
    rw [hd, List.length_append, List.length_replicate]
    push_cast
    rfl
  refine ⟨⟨fun c hc => ?_, hne, ?_⟩, ?_⟩
  · have hm : c ∈ ds := by
      rw [hd]
      exact List.mem_append_left _ hc
    exact Nat.isDigit_of_mem_toDigits (by decide) le_rfl hm
  · rw [← List.head?_append_of_ne_nil _ hne, ← hd]
    exact head_toDigits hn
  · have hp : f.point - f.digits.length = zeros + place := by
      show place + ds.length - f.digits.length = zeros + place
      omega
    have hv' : (n : ℚ) = 10 ^ zeros * Nat.ofDigitChars 10 f.digits 0 := by exact_mod_cast hv
    rw [Fraction.value, hp, hv', zpow_add₀ (by norm_num), zpow_natCast]
    ring

namespace Double

variable {x : Double}

theorem magnitude_eq (x : Double) : (x.numerator / x.denominator : ℚ) = x.magnitude := by
  have hn : x.numerator = x.significand * 2 ^ x.exponent.toNat := rfl
  have hd : x.denominator = 2 ^ (-x.exponent).toNat := rfl
  rw [hn, hd]
  push_cast
  rw [mul_div_assoc, pow_toNat_div two_ne_zero, magnitude]

theorem denominator_pos (x : Double) : 0 < x.denominator :=
  Nat.pow_pos (by decide)

theorem denominator_le (hz : x.significand ≠ 0) : x.denominator ≤ x.numerator * 10 ^ 400 := by
  have he := x.le_exponent
  have hn : 1 ≤ x.numerator := Nat.mul_pos (Nat.pos_of_ne_zero hz) (Nat.pow_pos (by decide))
  have hc : 2 ^ 1074 ≤ 10 ^ 400 := by decide +kernel
  have hd : x.denominator = 2 ^ (-x.exponent).toNat := rfl
  calc x.denominator ≤ 2 ^ 1074 := by
        rw [hd]
        exact pow_le_pow_right₀ one_le_two (by omega)
    _ ≤ 1 * 10 ^ 400 := by rw [one_mul]; exact hc
    _ ≤ x.numerator * 10 ^ 400 := Nat.mul_le_mul_right _ hn

theorem point_bounds (hz : x.significand ≠ 0) :
    (10 : ℚ) ^ (leadingPoint x.numerator x.denominator - 1) ≤ x.magnitude ∧
      x.magnitude < 10 ^ leadingPoint x.numerator x.denominator := by
  rw [← magnitude_eq]
  exact leadingPoint_bounds x.denominator_pos (denominator_le hz)

theorem near_of_lt {q : ℚ} (hl : (4 * x.significand - x.reach) * 2 ^ x.exponent < 4 * q)
    (hu : 4 * q < (4 * x.significand + 2) * 2 ^ x.exponent) : x.Near q := by
  rw [Near]
  split_ifs
  · exact ⟨hl.le, hu.le⟩
  · exact ⟨hl, hu⟩

/-- A decimal of so many digits below a double, or the one above it, rounds to the double, if there
are seventeen digits. -/
theorem near_seventeen {c g : ℚ} (hg : 10 ^ 16 * g ≤ x.magnitude)
    (hl : c * g ≤ x.magnitude) (hu : x.magnitude < (c + 1) * g) :
    x.Near (c * g) ∨ x.Near ((c + 1) * g) := by
  have hm := x.significand_add_one_le
  have hp : (0 : ℚ) < 2 ^ x.exponent := by positivity
  rw [magnitude] at hg hl hu
  -- the unit of the decimals is smaller than the last place of the double, as 2 ^ 53 < 10 ^ 16
  by_cases h : (4 * x.significand - x.reach) * 2 ^ x.exponent < 4 * (c * g)
  · refine .inl (near_of_lt h ?_)
    nlinarith
  · refine .inr (near_of_lt ?_ ?_)
    · have hr : (0 : ℚ) < x.reach := by
        obtain hr | hr := x.reach_cases <;> rw [hr.1] <;> norm_num
      nlinarith
    · rw [not_lt] at h
      obtain ⟨hr, -⟩ | ⟨hr, hs⟩ := x.reach_cases
      · rw [hr] at h
        push_cast at h
        nlinarith
      · rw [hr, hs] at h
        rw [hs] at hg ⊢
        push_cast at h hg ⊢
        nlinarith

def fits (x : Double) (place : Int) (c : Nat) : Bool :=
  let scale := Nat.pow 2 x.exponent.toNat * Nat.pow 10 (-place).toNat
  let unit := 4 * Nat.pow 10 place.toNat * Nat.pow 2 (-x.exponent).toNat
  if x.significand % 2 = 0 then
    (4 * x.significand - x.reach) * scale ≤ c * unit && c * unit ≤ (4 * x.significand + 2) * scale
  else
    (4 * x.significand - x.reach) * scale < c * unit && c * unit < (4 * x.significand + 2) * scale

theorem scaled_eq (x : Double) (place : Int) (a : Nat) :
    ((a * (2 ^ x.exponent.toNat * 10 ^ (-place).toNat) : Nat) : ℚ) =
      a * 2 ^ x.exponent * (2 ^ (-x.exponent).toNat * 10 ^ (-place).toNat) := by
  have h := pow_toNat_div (two_ne_zero (α := ℚ)) x.exponent
  rw [← h]
  push_cast
  field_simp

theorem unit_eq (x : Double) (place : Int) (c : Nat) :
    ((c * (4 * 10 ^ place.toNat * 2 ^ (-x.exponent).toNat) : Nat) : ℚ) =
      4 * (c * 10 ^ place) * (2 ^ (-x.exponent).toNat * 10 ^ (-place).toNat) := by
  have h := pow_toNat_div (b := (10 : ℚ)) (by norm_num) place
  rw [← h]
  push_cast
  field_simp

theorem fits_iff (hz : x.significand ≠ 0) (place : Int) (c : Nat) :
    x.fits place c = true ↔ x.Near (c * 10 ^ place) := by
  have hr : x.reach ≤ 4 * x.significand := by
    obtain hr | hr := x.reach_cases <;> omega
  have hp : (0 : ℚ) < 2 ^ (-x.exponent).toNat * 10 ^ (-place).toNat := by positivity
  have hs (a : Nat) : ((a * (Nat.pow 2 x.exponent.toNat * Nat.pow 10 (-place).toNat) : Nat) : ℚ) =
      a * 2 ^ x.exponent * (2 ^ (-x.exponent).toNat * 10 ^ (-place).toNat) := scaled_eq x place a
  have hu : ((c * (4 * Nat.pow 10 place.toNat * Nat.pow 2 (-x.exponent).toNat) : Nat) : ℚ) =
      4 * (c * 10 ^ place) * (2 ^ (-x.exponent).toNat * 10 ^ (-place).toNat) := unit_eq x place c
  rw [fits, Near]
  split_ifs
  · rw [Bool.and_eq_true, decide_eq_true_eq, decide_eq_true_eq, ← Nat.cast_le (α := ℚ), hs, hu,
      ← Nat.cast_le (α := ℚ), hu, hs, mul_le_mul_iff_left₀ hp, mul_le_mul_iff_left₀ hp,
      Nat.cast_sub hr]
    push_cast
    rfl
  · rw [Bool.and_eq_true, decide_eq_true_eq, decide_eq_true_eq, ← Nat.cast_lt (α := ℚ), hs, hu,
      ← Nat.cast_lt (α := ℚ), hu, hs, mul_lt_mul_iff_left₀ hp, mul_lt_mul_iff_left₀ hp,
      Nat.cast_sub hr]
    push_cast
    rfl

def below (x : Double) (place : Int) : Nat :=
  4 * x.significand * (Nat.pow 2 x.exponent.toNat * Nat.pow 10 (-place).toNat) /
    (4 * Nat.pow 10 place.toNat * Nat.pow 2 (-x.exponent).toNat)

/-- Of the two decimals beside a double one is chosen if any of them rounds to it. -/
theorem withDigits?_eq (x : Double) (point : Int) (count : Nat) :
    ∃ lower tie, x.withDigits? point count =
      let place := point - count
      let c := x.below place
      if x.fits place c && (!x.fits place (c + 1) || lower || tie) then some c
      else if x.fits place (c + 1) then some (c + 1)
      else none :=
  ⟨_, _, rfl⟩

theorem near_of_withDigits? (hz : x.significand ≠ 0) {point : Int} {count c : Nat}
    (h : x.withDigits? point count = some c) : x.Near (c * 10 ^ (point - count)) := by
  rw [← fits_iff hz]
  obtain ⟨lower, tie, he⟩ := x.withDigits?_eq point count
  rw [he] at h
  simp only at h
  split_ifs at h with h1 h2
  · obtain rfl := Option.some.inj h
    exact Bool.and_elim_left h1
  · obtain rfl := Option.some.inj h
    exact h2

theorem not_fits_of_withDigits? {point : Int} {count : Nat} (h : x.withDigits? point count = none) :
    x.fits (point - count) (x.below (point - count)) = false ∧
      x.fits (point - count) (x.below (point - count) + 1) = false := by
  obtain ⟨lower, tie, he⟩ := x.withDigits?_eq point count
  rw [he] at h
  simp only at h
  split_ifs at h with h1 h2
  rw [Bool.not_eq_true] at h2
  rw [h2, Bool.not_false, Bool.true_or, Bool.true_or, Bool.and_true, Bool.not_eq_true] at h1
  exact ⟨h1, h2⟩

theorem below_bounds (x : Double) (place : Int) :
    (x.below place : ℚ) * 10 ^ place ≤ x.magnitude ∧
      x.magnitude < ((x.below place + 1 : Nat) : ℚ) * 10 ^ place := by
  have hp : (0 : ℚ) < 2 ^ (-x.exponent).toNat * 10 ^ (-place).toNat := by positivity
  have hs := scaled_eq x place (4 * x.significand)
  have hu := unit_eq x place
  have hb : x.below place =
      4 * x.significand * (2 ^ x.exponent.toNat * 10 ^ (-place).toNat) /
        (4 * 10 ^ place.toNat * 2 ^ (-x.exponent).toNat) := rfl
  have hpos : 0 < 4 * 10 ^ place.toNat * 2 ^ (-x.exponent).toNat := by positivity
  generalize 4 * x.significand * (2 ^ x.exponent.toNat * 10 ^ (-place).toNat) = a at hs hb
  generalize 4 * 10 ^ place.toNat * 2 ^ (-x.exponent).toNat = b at hu hb hpos
  rw [magnitude]
  push_cast at hs
  constructor
  · have hl : x.below place * b ≤ a := by
      rw [hb]
      exact Nat.div_mul_le_self a b
    rw [← Nat.cast_le (α := ℚ), hu, hs, mul_le_mul_iff_left₀ hp] at hl
    linarith
  · have hl : a < (x.below place + 1) * b := by
      rw [hb, Nat.add_one_mul]
      exact Nat.lt_div_mul_add hpos
    rw [← Nat.cast_lt (α := ℚ), hu, hs, mul_lt_mul_iff_left₀ hp] at hl
    linarith

/-- Seventeen digits are enough for every double. -/
theorem withDigits?_seventeen (hz : x.significand ≠ 0) :
    x.withDigits? (leadingPoint x.numerator x.denominator) 17 ≠ none := by
  intro h
  obtain ⟨h1, h2⟩ := not_fits_of_withDigits? h
  obtain ⟨hp, -⟩ := point_bounds hz
  generalize leadingPoint x.numerator x.denominator = point at *
  obtain ⟨hl, hu⟩ := x.below_bounds (point - (17 : Nat))
  have hg : (10 : ℚ) ^ 16 * 10 ^ (point - (17 : Nat)) = 10 ^ (point - 1) := by
    rw [← zpow_natCast, ← zpow_add₀ (by norm_num)]
    congr 1
    push_cast
    ring
  rw [← hg] at hp
  rw [Nat.cast_add_one] at hu
  obtain hn | hn := near_seventeen hp hl hu
  · rw [← fits_iff hz, h1] at hn
    cases hn
  · rw [← Nat.cast_add_one, ← fits_iff hz, h2] at hn
    cases hn

/-- The fewest digits of a double are a fraction that rounds to it. -/
theorem near_shortest (hz : x.significand ≠ 0) :
    x.shortest.IsNormal ∧ x.Near x.shortest.value := by
  rw [shortest]
  simp only
  split
  · rename_i n count hf
    obtain ⟨k, -, hk⟩ := List.exists_of_findSome?_eq_some hf
    obtain ⟨c, hc, he⟩ := Option.map_eq_some_iff.mp hk
    obtain ⟨rfl, rfl⟩ := Prod.mk.inj he
    have hn := near_of_withDigits? hz hc
    have hpos : 0 < c := by
      have hq := hn.half_le hz
      by_contra h
      rw [Nat.eq_zero_of_not_pos h, Nat.cast_zero, zero_mul] at hq
      exact absurd hq (not_le.mpr (by positivity))
    generalize leadingPoint x.numerator x.denominator = point at *
    obtain ⟨hf', hv⟩ := normal_trim hpos (point - (k + 1 : Nat))
    have hp : point - ((k + 1 : Nat) : Int) + (Nat.toDigits 10 c).length =
        point + (Nat.toDigits 10 c).length - (k + 1 : Nat) := by
      ring
    rw [hp] at hf' hv
    rw [← hv] at hn
    exact ⟨hf', hn⟩
  · rename_i hf
    have hk := List.findSome?_eq_none_iff.mp hf 16 (List.mem_range.mpr (by decide))
    exact absurd (Option.map_eq_none_iff.mp hk) (withDigits?_seventeen hz)

end Double

theorem lt_of_mem_powerText (n : Int) : ∀ c ∈ powerText n, ' ' < c := by
  have hd : ∀ c ∈ Nat.toDigits 10 n.natAbs, ' ' < c := lt_of_mem_digits n.natAbs
  refine List.forall_mem_cons.mpr ⟨?_, ?_⟩
  · split_ifs <;> decide
  · split_ifs
    · exact List.forall_mem_cons.mpr ⟨by decide, hd⟩
    · exact hd

theorem Fraction.lt_of_mem_text {f : Fraction} (hd : ∀ c ∈ f.digits, ' ' < c) :
    ∀ c ∈ f.text, ' ' < c := by
  have ht (k : Nat) : ∀ c ∈ f.digits.take k, ' ' < c := fun c hm => hd c (List.mem_of_mem_take hm)
  have hr (k : Nat) : ∀ c ∈ f.digits.drop k, ' ' < c := fun c hm => hd c (List.mem_of_mem_drop hm)
  have hz (k : Nat) : ∀ c ∈ List.replicate k '0', ' ' < c := by
    intro c hm
    rw [List.eq_of_mem_replicate hm]
    decide
  rw [Fraction.text]
  -- with a power of ten behind several digits or one, below one, whole, and with a point between
  split_ifs <;> simp only [List.forall_mem_append, List.forall_mem_cons]
  · exact ⟨⟨ht 1, by decide, hr 1⟩, by decide, lt_of_mem_powerText _⟩
  · exact ⟨⟨ht 1, nofun⟩, by decide, lt_of_mem_powerText _⟩
  · exact ⟨⟨by decide, by decide, hz _⟩, hd⟩
  · exact ⟨⟨hd, hz _⟩, by simp⟩
  · exact ⟨ht _, by decide, hr _⟩

theorem lt_of_mem_shortest (x : Double) : ∀ c ∈ x.shortest.digits, ' ' < c := by
  rw [Double.shortest]
  dsimp only
  split
  · intro c h
    have hm := (List.dropWhile_sublist _).mem (List.mem_reverse.mp h)
    exact lt_of_mem_digits _ c (List.mem_reverse.mp hm)
  · simp

theorem Double.lt_of_mem_text (x : Double) : ∀ c ∈ x.text, ' ' < c := by
  refine List.forall_mem_append.mpr ⟨?_, ?_⟩
  · split_ifs <;> simp
  · split_ifs
    · simp
    · simp
    · simp
    · exact Fraction.lt_of_mem_text (lt_of_mem_shortest x)

end SyntaxQuery.Number
