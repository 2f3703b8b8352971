import Mathlib
import SyntaxQuery.Proofs.Number.Double

namespace SyntaxQuery.Number.Double

def magnitude (x : Double) : ℚ :=
  x.significand * 2 ^ x.exponent

/-- How far the fractions that round to a double reach below it, in quarters of its last place. Below
a power of two the doubles lie closer to each other. -/
def reach (x : Double) : Nat :=
  if x.significand = Nat.pow 2 52 && x.field > 1 then 1 else 2

/-- A fraction lies so near to a double that it rounds to it. A fraction in the middle between two
doubles belongs to the one with the even significand. -/
def Near (x : Double) (q : ℚ) : Prop :=
  if x.significand % 2 = 0 then
    (4 * x.significand - x.reach) * 2 ^ x.exponent ≤ 4 * q ∧
      4 * q ≤ (4 * x.significand + 2) * 2 ^ x.exponent
  else
    (4 * x.significand - x.reach) * 2 ^ x.exponent < 4 * q ∧
      4 * q < (4 * x.significand + 2) * 2 ^ x.exponent

theorem roundDiv_eq {n d m : Nat} (hd : 0 < d) (hl : 2 * (m * d) ≤ 2 * n + d)
    (hu : 2 * n ≤ 2 * (m * d) + d)
    (ho : m % 2 = 1 → 2 * (m * d) < 2 * n + d ∧ 2 * n < 2 * (m * d) + d) : roundDiv n d = m := by
  have hn := Nat.div_add_mod' n d
  have hr := Nat.mod_lt n hd
  rw [roundDiv]
  generalize n / d = q at hn
  generalize n % d = r at hn hr
  have hq : q ≤ m := by
    by_contra h
    have hm : (m + 1) * d ≤ q * d := Nat.mul_le_mul_right d (by omega)
    rw [Nat.add_one_mul m] at hm
    omega
  have hm : m ≤ q + 1 := by
    by_contra h
    have hm : (q + 2) * d ≤ m * d := Nat.mul_le_mul_right d (by omega)
    rw [Nat.add_mul] at hm
    omega
  obtain rfl | rfl : m = q ∨ m = q + 1 := by omega
  · split_ifs <;> omega
  · rw [Nat.add_one_mul q] at hl hu ho
    split_ifs <;> omega

theorem pow_toNat_div {b : ℚ} (hb : b ≠ 0) (e : Int) : b ^ e.toNat / b ^ (-e).toNat = b ^ e := by
  rw [← zpow_natCast, ← zpow_natCast, ← zpow_sub₀ hb]
  congr 1
  omega

theorem quotient_eq (n d : Nat) (e : Int) :
    ((n * 2 ^ (-e).toNat : Nat) : ℚ) / (d * 2 ^ e.toNat : Nat) = n / d * 2 ^ (-e) := by
  have h := pow_toNat_div (two_ne_zero (α := ℚ)) (-e)
  rw [neg_neg] at h
  push_cast
  rw [mul_div_mul_comm, h]

theorem div_eq_quotient (n d : Nat) (e : Int) :
    (n / d : ℚ) = ((n * 2 ^ (-e).toNat : Nat) : ℚ) / (d * 2 ^ e.toNat : Nat) * 2 ^ e := by
  rw [quotient_eq, mul_assoc, ← zpow_add₀ two_ne_zero, neg_add_cancel, zpow_zero, mul_one]

theorem log2_bounds {n d : Nat} (hn : 0 < n) (hd : 0 < d) :
    (2 : ℚ) ^ ((n.log2 : Int) - d.log2 - 1) ≤ n / d ∧ (n / d : ℚ) < 2 ^ ((n.log2 : Int) - d.log2 + 1) := by
  have hnl : ((2 ^ n.log2 : Nat) : ℚ) ≤ n := Nat.cast_le.mpr (Nat.log2_self_le hn.ne')
  have hnu : (n : ℚ) < (2 ^ (n.log2 + 1) : Nat) := Nat.cast_lt.mpr Nat.lt_log2_self
  have hdl : ((2 ^ d.log2 : Nat) : ℚ) ≤ d := Nat.cast_le.mpr (Nat.log2_self_le hd.ne')
  have hdu : (d : ℚ) < (2 ^ (d.log2 + 1) : Nat) := Nat.cast_lt.mpr Nat.lt_log2_self
  have hd' : (0 : ℚ) < d := Nat.cast_pos.mpr hd
  push_cast at hnl hnu hdl hdu
  constructor
  · rw [le_div_iff₀ hd']
    calc (2 : ℚ) ^ ((n.log2 : Int) - d.log2 - 1) * d
        ≤ 2 ^ ((n.log2 : Int) - d.log2 - 1) * 2 ^ (d.log2 + 1) := by gcongr
      _ = 2 ^ n.log2 := by
        rw [← zpow_natCast, ← zpow_natCast, ← zpow_add₀ two_ne_zero]
        congr 1
        push_cast
        ring
      _ ≤ n := hnl
  · rw [div_lt_iff₀ hd']
    calc (n : ℚ) < 2 ^ (n.log2 + 1) := hnu
      _ = 2 ^ ((n.log2 : Int) - d.log2 + 1) * 2 ^ d.log2 := by
        rw [← zpow_natCast, ← zpow_natCast, ← zpow_add₀ two_ne_zero]
        congr 1
        push_cast
        ring
      _ ≤ 2 ^ ((n.log2 : Int) - d.log2 + 1) * d := by gcongr

/-- The unit that a fraction is rounded to: the significand gets fifty-three bits in it, or less if it
is the least of all units. -/
theorem nearestBits_unit {n d : Nat} (hn : 0 < n) (hd : 0 < d) :
    ∃ e : Int, nearestBits n d =
        min ((e + 1074).toNat * 2 ^ 52 + roundDiv (n * 2 ^ (-e).toNat) (d * 2 ^ e.toNat))
          (2047 * 2 ^ 52) ∧
      -1074 ≤ e ∧ (n / d : ℚ) < 2 ^ (53 + e) ∧ (e = -1074 ∨ (2 : ℚ) ^ (52 + e) ≤ n / d) := by
  obtain ⟨hl, hu⟩ := log2_bounds hn hd
  let low : Int := max ((n.log2 : Int) - d.log2 - 53) (-1074)
  have hc : n * 2 ^ (-low).toNat / (d * 2 ^ low.toNat) ≥ 2 ^ 53 ↔ (2 : ℚ) ^ (53 + low) ≤ n / d := by
    have hp : (0 : ℚ) < (d * 2 ^ low.toNat : Nat) := by positivity
    rw [ge_iff_le, Nat.le_div_iff_mul_le (by positivity), ← Nat.cast_le (α := ℚ), Nat.cast_mul,
      ← le_div_iff₀ hp, quotient_eq, zpow_neg, ← div_eq_mul_inv, le_div_iff₀ (by positivity),
      zpow_add₀ two_ne_zero]
    norm_num
  by_cases h : (2 : ℚ) ^ (53 + low) ≤ n / d
  · refine ⟨low + 1, ?_, by omega, ?_, .inr ?_⟩
    · rw [nearestBits]
      exact congrArg (fun e : Int => min ((e + 1074).toNat * 2 ^ 52 +
        roundDiv (n * 2 ^ (-e).toNat) (d * 2 ^ e.toNat)) (2047 * 2 ^ 52)) (if_pos (hc.mpr h))
    · exact hu.trans_le (zpow_le_zpow_right₀ one_le_two (by omega))
    · rwa [show 52 + (low + 1) = 53 + low by ring]
  · refine ⟨low, ?_, by omega, not_le.mp h, ?_⟩
    · rw [nearestBits]
      exact congrArg (fun e : Int => min ((e + 1074).toNat * 2 ^ 52 +
        roundDiv (n * 2 ^ (-e).toNat) (d * 2 ^ e.toNat)) (2047 * 2 ^ 52)) (if_neg (mt hc.mp h))
    · obtain hm | hm := max_choice ((n.log2 : Int) - d.log2 - 53) (-1074)
      · refine .inr (le_trans (zpow_le_zpow_right₀ one_le_two ?_) hl)
        omega
      · exact .inl hm

variable {x : Double} {q : ℚ}

theorem Near.low (h : x.Near q) :
    (4 * x.significand - x.reach) * 2 ^ x.exponent ≤ 4 * q := by
  rw [Near] at h
  split_ifs at h
  · exact h.1
  · exact h.1.le

theorem Near.high (h : x.Near q) : 4 * q ≤ (4 * x.significand + 2) * 2 ^ x.exponent := by
  rw [Near] at h
  split_ifs at h
  · exact h.2
  · exact h.2.le

theorem reach_cases (x : Double) :
    x.reach = 2 ∧ (x.significand = 2 ^ 52 → x.exponent = -1074) ∨
      x.reach = 1 ∧ x.significand = 2 ^ 52 := by
  rw [reach]
  split_ifs with h
  · rw [Bool.and_eq_true, decide_eq_true_eq] at h
    exact .inr ⟨rfl, h.1⟩
  · rw [Bool.and_eq_true, decide_eq_true_eq, decide_eq_true_eq, not_and] at h
    refine .inl ⟨rfl, fun hm => ?_⟩
    have hf := h hm
    rw [exponent]
    omega

theorem reach_le_two (x : Double) : (x.reach : ℚ) ≤ 2 := by
  obtain ⟨hr, -⟩ | ⟨hr, -⟩ := x.reach_cases <;> rw [hr] <;> norm_num

theorem significand_add_one_le (x : Double) : (x.significand : ℚ) + 1 ≤ 2 ^ 53 := by
  exact_mod_cast x.significand_lt

theorem Near.half_le (h : x.Near q) (hz : x.significand ≠ 0) : 2 ^ (x.exponent - 1) ≤ q := by
  have hlow := h.low
  have hr := x.reach_le_two
  have hm : (1 : ℚ) ≤ x.significand := by exact_mod_cast Nat.one_le_iff_ne_zero.mpr hz
  have hp : (0 : ℚ) < 2 ^ x.exponent := by positivity
  rw [zpow_sub_one₀ two_ne_zero]
  nlinarith

theorem Near.unit (h : x.Near q) {e : Int} (he : -1074 ≤ e) (hu : q < 2 ^ (53 + e))
    (hl : e = -1074 ∨ (2 : ℚ) ^ (52 + e) ≤ q) :
    e = x.exponent ∨ e = x.exponent - 1 ∧ x.significand = 2 ^ 52 ∧ x.reach = 1 := by
  have hlow := h.low
  have hhigh := h.high
  have hx := x.le_exponent
  have hm := x.significand_add_one_le
  have hp : (0 : ℚ) < 2 ^ x.exponent := by positivity
  have hs (k : Int) : (2 : ℚ) ^ (k + x.exponent) = 2 ^ k * 2 ^ x.exponent := zpow_add₀ two_ne_zero _ _
  obtain hlt | rfl | hgt := lt_trichotomy e x.exponent
  · -- the fraction is below 2 ^ 52 units of the double, so the double must be that power of two
    right
    have hq : q < 2 ^ (52 : Int) * 2 ^ x.exponent := by
      rw [← hs]
      exact hu.trans_le (zpow_le_zpow_right₀ one_le_two (by omega))
    have hn := x.le_significand (by omega)
    obtain ⟨hr, hm2⟩ | ⟨hr, hm2⟩ := x.reach_cases
    · have hne : 2 ^ 52 + 1 ≤ x.significand := by
        by_contra hc
        exact absurd (hm2 (by omega)) (by omega)
      have hne' : (2 : ℚ) ^ 52 + 1 ≤ x.significand := by exact_mod_cast hne
      rw [hr] at hlow
      push_cast at hlow
      nlinarith
    · refine ⟨?_, hm2, hr⟩
      by_contra hne
      have hq' : q < 2 ^ (51 : Int) * 2 ^ x.exponent := by
        rw [← hs]
        exact hu.trans_le (zpow_le_zpow_right₀ one_le_two (by omega))
      rw [hr, hm2] at hlow
      push_cast at hlow
      nlinarith
  · exact .inl rfl
  · -- the fraction would have fifty-four bits in units of the double
    have hq : (2 : ℚ) ^ (53 : Int) * 2 ^ x.exponent ≤ q := by
      rw [← hs]
      exact le_trans (zpow_le_zpow_right₀ one_le_two (by omega)) (hl.resolve_left (by omega))
    nlinarith

/-- In units of its own last place, a fraction near to a double is rounded to its significand. -/
theorem Near.roundDiv_eq {n d : Nat} (hd : 0 < d) (h : x.Near (n / d)) :
    roundDiv (n * 2 ^ (-x.exponent).toNat) (d * 2 ^ x.exponent.toNat) = x.significand := by
  have hn := div_eq_quotient n d x.exponent
  have hb : 0 < d * 2 ^ x.exponent.toNat := by positivity
  generalize n * 2 ^ (-x.exponent).toNat = a at hn
  generalize d * 2 ^ x.exponent.toNat = b at hn hb
  have hb' : (0 : ℚ) < b := Nat.cast_pos.mpr hb
  have hr := x.reach_le_two
  have hp : (0 : ℚ) < 2 ^ x.exponent := by positivity
  have hlow := h.low
  have hhigh := h.high
  rw [hn, ← mul_assoc, mul_le_mul_iff_left₀ hp, ← mul_div_assoc] at hlow hhigh
  rw [le_div_iff₀ hb'] at hlow
  rw [div_le_iff₀ hb'] at hhigh
  refine Double.roundDiv_eq hb ?_ ?_ fun ho => ?_
  · rw [← Nat.cast_le (α := ℚ)]
    push_cast
    nlinarith
  · rw [← Nat.cast_le (α := ℚ)]
    push_cast
    nlinarith
  · rw [Near, if_neg (by omega), hn, ← mul_assoc, mul_lt_mul_iff_left₀ hp, mul_lt_mul_iff_left₀ hp,
      ← mul_div_assoc, lt_div_iff₀ hb', div_lt_iff₀ hb'] at h
    constructor <;> rw [← Nat.cast_lt (α := ℚ)] <;> push_cast <;> nlinarith [h.1, h.2]

/-- In units of half its last place, a fraction near to a power of two and below it is rounded to
twice its significand. -/
theorem Near.roundDiv_below {n d : Nat} (hd : 0 < d) (h : x.Near (n / d)) (hr : x.reach = 1)
    (hm : x.significand = 2 ^ 52) (hu : (n / d : ℚ) < 2 ^ (53 + (x.exponent - 1))) :
    roundDiv (n * 2 ^ (-(x.exponent - 1)).toNat) (d * 2 ^ (x.exponent - 1).toNat) = 2 ^ 53 := by
  have hn := div_eq_quotient n d (x.exponent - 1)
  have hb : 0 < d * 2 ^ (x.exponent - 1).toNat := by positivity
  have hlow := h.low
  have he : (2 : ℚ) ^ x.exponent = 2 * 2 ^ (x.exponent - 1) := by
    rw [← zpow_one_add₀ two_ne_zero]
    congr 1
    ring
  rw [hr, hm, he] at hlow
  rw [zpow_add₀ two_ne_zero] at hu
  generalize x.exponent - 1 = e at *
  generalize n * 2 ^ (-e).toNat = a at hn
  generalize d * 2 ^ e.toNat = b at hn hb
  have hb' : (0 : ℚ) < b := Nat.cast_pos.mpr hb
  have hp : (0 : ℚ) < 2 ^ e := by positivity
  rw [hn, ← mul_assoc, ← mul_assoc, mul_le_mul_iff_left₀ hp, ← mul_div_assoc,
    le_div_iff₀ hb'] at hlow
  rw [hn, mul_lt_mul_iff_left₀ hp, div_lt_iff₀ hb'] at hu
  push_cast at hlow
  refine Double.roundDiv_eq hb ?_ ?_ (by omega) <;> rw [← Nat.cast_le (α := ℚ)] <;> push_cast
  · nlinarith
  · nlinarith

/-- The nearest double to a fraction is the one that the fraction is near to. -/
theorem Near.nearestBits_eq (hx : x.field < 2047) {n d : Nat} (hn : 0 < n) (hd : 0 < d)
    (h : x.Near (n / d)) :
    nearestBits n d = (x.exponent + 1074).toNat * 2 ^ 52 + x.significand := by
  obtain ⟨e, hb, he, hu, hl⟩ := nearestBits_unit hn hd
  have hs := x.significand_lt
  have hx' := x.toNat_exponent
  have hbits : (e + 1074).toNat * 2 ^ 52 + roundDiv (n * 2 ^ (-e).toNat) (d * 2 ^ e.toNat) =
      (x.exponent + 1074).toNat * 2 ^ 52 + x.significand := by
    obtain rfl | ⟨rfl, hm, hr⟩ := h.unit he hu hl
    · rw [h.roundDiv_eq hd]
    · rw [h.roundDiv_below hd hr hm hu, hm]
      omega
  have hk : (x.exponent + 1074).toNat ≤ 2045 := by omega
  rw [hb, hbits, Nat.min_eq_left]
  calc (x.exponent + 1074).toNat * 2 ^ 52 + x.significand
      ≤ 2045 * 2 ^ 52 + 2 ^ 53 := Nat.add_le_add (Nat.mul_le_mul_right _ hk) hs.le
    _ = 2047 * 2 ^ 52 := by norm_num

theorem toDigits_bounds {n : Nat} (hn : 0 < n) :
    10 ^ ((Nat.toDigits 10 n).length - 1) ≤ n ∧ n < 10 ^ (Nat.toDigits 10 n).length := by
  have hl := Nat.length_toDigits_pos (b := 10) (n := n)
  refine ⟨?_, (Nat.length_toDigits_le_iff (by decide) hl).mp le_rfl⟩
  by_contra h
  by_cases h1 : (Nat.toDigits 10 n).length = 1
  · rw [h1] at h
    exact h hn
  · have := (Nat.length_toDigits_le_iff (b := 10) (by decide) (by omega)).mpr (not_le.mp h)
    omega

theorem decimal_bounds {digits : Nat} (hd : 0 < digits) (scale : Int) :
    (10 : ℚ) ^ ((Nat.toDigits 10 digits).length + scale - 1) ≤ digits * 10 ^ scale ∧
      digits * 10 ^ scale < (10 : ℚ) ^ ((Nat.toDigits 10 digits).length + scale) := by
  obtain ⟨hl, hu⟩ := toDigits_bounds hd
  have hp := Nat.length_toDigits_pos (b := 10) (n := digits)
  generalize (Nat.toDigits 10 digits).length = k at hl hu hp
  have hl' : ((10 ^ (k - 1) : Nat) : ℚ) ≤ digits := Nat.cast_le.mpr hl
  have hu' : (digits : ℚ) < (10 ^ k : Nat) := Nat.cast_lt.mpr hu
  push_cast at hl' hu'
  have hs : (0 : ℚ) < 10 ^ scale := by positivity
  constructor
  · rw [show (k : Int) + scale - 1 = (k - 1 : Nat) + scale by omega, zpow_add₀ (by norm_num),
      zpow_natCast]
    gcongr
  · rw [zpow_add₀ (by norm_num), zpow_natCast]
    gcongr

theorem ten_pow_lt : (10 : ℚ) ^ (-331 : Int) < 2 ^ (-1075 : Int) := by
  have h : 2 ^ 1075 < 10 ^ 331 := by decide +kernel
  have hc : (2 : ℚ) ^ 1075 < 10 ^ 331 := by exact_mod_cast h
  rw [zpow_neg, zpow_neg, zpow_ofNat, zpow_ofNat]
  exact inv_strictAnti₀ (pow_pos two_pos _) hc

theorem two_pow_lt : (2 : ℚ) ^ (1024 : Int) < 10 ^ (310 : Int) := by
  have h : 2 ^ 1024 < 10 ^ 310 := by decide +kernel
  have hc : (2 : ℚ) ^ 1024 < 10 ^ 310 := by exact_mod_cast h
  exact hc

theorem Near.bounds (hx : x.field < 2047) (hz : x.significand ≠ 0) (h : x.Near q) :
    (10 : ℚ) ^ (-331 : Int) < q ∧ q < (10 : ℚ) ^ (310 : Int) := by
  have hhigh := h.high
  have he := x.le_exponent
  have he' : x.exponent ≤ 971 := by
    rw [exponent]
    omega
  have hm := x.significand_add_one_le
  have hp : (0 : ℚ) < 2 ^ x.exponent := by positivity
  have hqu : q ≤ 2 ^ (53 + x.exponent) := by
    rw [zpow_add₀ two_ne_zero]
    nlinarith
  constructor
  · refine ten_pow_lt.trans_le (le_trans (zpow_le_zpow_right₀ one_le_two ?_) (h.half_le hz))
    omega
  · refine (hqu.trans (zpow_le_zpow_right₀ one_le_two ?_)).trans_lt two_pow_lt
    omega

/-- The double that decimal digits stand for is the one that their number is near to. -/
theorem Near.decimalBits_eq (hx : x.field < 2047) (hz : x.significand ≠ 0) {digits : Nat}
    {scale : Int} (h : x.Near (digits * 10 ^ scale)) :
    decimalBits digits scale = (x.exponent + 1074).toNat * 2 ^ 52 + x.significand := by
  obtain ⟨hl, hu⟩ := h.bounds hx hz
  have hd : 0 < digits := by
    by_contra hd
    rw [Nat.eq_zero_of_not_pos hd, Nat.cast_zero, zero_mul] at hl
    exact absurd hl (not_lt.mpr (by positivity))
  obtain ⟨hdl, hdu⟩ := decimal_bounds hd scale
  have hone : (1 : ℚ) < 10 := by norm_num
  have hs := (zpow_lt_zpow_iff_right₀ hone).mp (hl.trans hdu)
  have hs' := (zpow_lt_zpow_iff_right₀ hone).mp (hdl.trans_lt hu)
  rw [decimalBits, if_neg, if_neg]
  · have hn : 0 < digits * 10 ^ scale.toNat := Nat.mul_pos hd (by positivity)
    refine Near.nearestBits_eq hx hn (Nat.pow_pos (by decide)) ?_
    have he : ((digits * 10 ^ scale.toNat : Nat) / (10 ^ (-scale).toNat : Nat) : ℚ) =
        digits * 10 ^ scale := by
      push_cast
      rw [mul_div_assoc, pow_toNat_div (by norm_num)]
    exact he ▸ h
  · omega
  · rw [Bool.or_eq_true, decide_eq_true_eq, decide_eq_true_eq]
    omega

theorem Near.ofDecimal_eq (hx : x.field < 2047) (hz : x.significand ≠ 0) {digits : Nat}
    {scale : Int} (h : x.Near (digits * 10 ^ scale)) : ofDecimal x.negative digits scale = x := by
  apply eq_of_toNat
  rw [toNat_ofDecimal, h.decimalBits_eq hx hz, ← toNat_bits]

theorem ofDecimal_zero (hz : x.significand = 0) (scale : Int) : ofDecimal x.negative 0 scale = x := by
  have he : x.exponent ≤ -1074 := by
    by_contra h
    have hs := le_significand (not_le.mp h)
    rw [hz] at hs
    exact absurd hs (by decide)
  apply eq_of_toNat
  have hd : decimalBits 0 scale = 0 := rfl
  rw [toNat_ofDecimal, hd, x.toNat_bits, hz, Int.toNat_of_nonpos (by omega), zero_mul]

theorem infinity_eq (h : x.isInfinite = true) : infinity x.negative = x := by
  rw [isInfinite, Bool.and_eq_true, decide_eq_true_eq, decide_eq_true_eq] at h
  apply eq_of_toNat
  have he := x.toNat_exponent
  rw [h.1] at he
  have hb := x.toNat_bits
  rw [he, h.2] at hb
  rw [hb]
  cases x.negative <;> rfl

theorem field_lt (hn : x.isNaN = false) (hi : x.isInfinite = false) : x.field < 2047 := by
  have hf : x.field < Nat.pow 2 11 := Nat.mod_lt _ (by decide)
  have hne : x.field ≠ 2047 := by
    intro h
    rw [isNaN, h] at hn
    rw [isInfinite, h] at hi
    simp_all
  have h11 : Nat.pow 2 11 = 2048 := rfl
  omega

end SyntaxQuery.Number.Double
