import Mathlib.Tactic.Ring
import Mathlib.Tactic.SplitIfs
import SyntaxQuery.Number.Double

namespace SyntaxQuery.Number.Double

theorem toNat_bits_lt (x : Double) : x.bits.toNat < 2 ^ 64 :=
  x.bits.toNat_lt

theorem eq_of_toNat {x y : Double} (h : x.bits.toNat = y.bits.toNat) : x = y := by
  cases x
  cases y
  exact congrArg mk (UInt64.toNat_inj.mp h)

theorem negative_eq (x : Double) : x.negative = decide (2 ^ 63 ≤ x.bits.toNat) := rfl

theorem field_eq (x : Double) : x.field = x.bits.toNat / 2 ^ 52 % 2 ^ 11 := rfl

theorem significand_eq (x : Double) :
    x.significand =
      if x.field = 0 then x.bits.toNat % 2 ^ 52 else 2 ^ 52 + x.bits.toNat % 2 ^ 52 := rfl

theorem significand_lt (x : Double) : x.significand < 2 ^ 53 := by
  rw [significand_eq]
  split_ifs <;> omega

theorem le_exponent (x : Double) : -1074 ≤ x.exponent := by
  rw [exponent]
  omega

theorem toNat_exponent (x : Double) : (x.exponent + 1074).toNat = max x.field 1 - 1 := by
  rw [exponent]
  omega

theorem le_significand {x : Double} (h : -1074 < x.exponent) : 2 ^ 52 ≤ x.significand := by
  rw [exponent] at h
  rw [significand_eq, if_neg (by omega)]
  omega

/-- The bits are a sign, and behind it a place among the significands, exponent by exponent. -/
theorem toNat_bits (x : Double) :
    x.bits.toNat = (x.exponent + 1074).toNat * 2 ^ 52 + x.significand +
      if x.negative then 2 ^ 63 else 0 := by
  have hb := x.toNat_bits_lt
  rw [toNat_exponent, significand_eq, negative_eq, field_eq]
  split_ifs with hz hn hn <;> rw [decide_eq_true_eq] at hn <;> omega

theorem nearestBits_le (n d : Nat) : nearestBits n d ≤ 2047 * 2 ^ 52 :=
  Nat.min_le_right _ _

theorem decimalBits_le (digits : Nat) (scale : Int) : decimalBits digits scale ≤ 2047 * 2 ^ 52 := by
  rw [decimalBits]
  split_ifs
  · exact Nat.zero_le _
  · exact Nat.le_refl _
  · exact nearestBits_le _ _

theorem toNat_ofDecimal (isNegative : Bool) (digits : Nat) (scale : Int) :
    (ofDecimal isNegative digits scale).bits.toNat =
      decimalBits digits scale + if isNegative then 2 ^ 63 else 0 := by
  have hb := decimalBits_le digits scale
  rw [ofDecimal, UInt64.toNat_ofNat']
  refine Nat.mod_eq_of_lt ?_
  show decimalBits digits scale + (if isNegative then 2 ^ 63 else 0) < 2 ^ 64
  split_ifs <;> omega

theorem isNaN_ofDecimal (isNegative : Bool) (digits : Nat) (scale : Int) :
    (ofDecimal isNegative digits scale).isNaN = false := by
  have hb := decimalBits_le digits scale
  have hx := toNat_ofDecimal isNegative digits scale
  generalize ofDecimal isNegative digits scale = x at hx
  have h : x.field = 2047 → x.significand = 2 ^ 52 := by
    rw [significand_eq, field_eq, hx]
    split_ifs <;> omega
  simpa [isNaN] using h

end SyntaxQuery.Number.Double
