namespace SyntaxQuery.Number

/-- A floating-point number of double precision, by its sixty-four bits. -/
structure Double where
  bits : UInt64
deriving DecidableEq, Inhabited

namespace Double

def negative (x : Double) : Bool :=
  x.bits.toNat ≥ Nat.pow 2 63

def field (x : Double) : Nat :=
  x.bits.toNat / Nat.pow 2 52 % Nat.pow 2 11

def significand (x : Double) : Nat :=
  if x.field = 0 then x.bits.toNat % Nat.pow 2 52 else Nat.pow 2 52 + x.bits.toNat % Nat.pow 2 52

def exponent (x : Double) : Int :=
  (max x.field 1 : Nat) - 1075

def isZero (x : Double) : Bool :=
  x.significand = 0

def isInfinite (x : Double) : Bool :=
  x.field = 2047 && x.significand = Nat.pow 2 52

def isNaN (x : Double) : Bool :=
  x.field = 2047 && x.significand ≠ Nat.pow 2 52

def infinity (isNegative : Bool) : Double :=
  ⟨.ofNat (2047 * Nat.pow 2 52 + if isNegative then Nat.pow 2 63 else 0)⟩

def nan : Double :=
  ⟨.ofNat (2047 * Nat.pow 2 52 + Nat.pow 2 51)⟩

def numerator (x : Double) : Nat :=
  x.significand * Nat.pow 2 x.exponent.toNat

def denominator (x : Double) : Nat :=
  Nat.pow 2 (-x.exponent).toNat

def truncate (x : Double) : Int :=
  let n : Int := (x.numerator / x.denominator : Nat)
  if x.negative then -n else n

def isInt (x : Double) (n : Int) : Bool :=
  x.numerator % x.denominator = 0 && x.truncate = n

/-- The same number. Both zeros are one, and what is no number is not even the same as itself. -/
def same (x y : Double) : Bool :=
  !x.isNaN && x = y || x.isZero && y.isZero

def roundDiv (n d : Nat) : Nat :=
  let q := n / d
  let r := 2 * (n % d)
  if r < d then q else if r > d then q + 1 else q + q % 2

/-- The bits of the double nearest to a positive fraction, without a sign. -/
def nearestBits (n d : Nat) : Nat :=
  let low : Int := max ((n.log2 : Int) - d.log2 - 53) (-1074)
  let quotient (e : Int) : Nat × Nat := (n * Nat.pow 2 (-e).toNat, d * Nat.pow 2 e.toNat)
  let e := if (quotient low).1 / (quotient low).2 ≥ Nat.pow 2 53 then low + 1 else low
  let bits := (e + 1074).toNat * Nat.pow 2 52 + roundDiv (quotient e).1 (quotient e).2
  min bits (2047 * Nat.pow 2 52)

def decimalBits (digits : Nat) (scale : Int) : Nat :=
  let size := ((Nat.toDigits 10 digits).length : Int) + scale
  if digits = 0 || size < -330 then 0
  else if size > 310 then 2047 * Nat.pow 2 52
  else nearestBits (digits * Nat.pow 10 scale.toNat) (Nat.pow 10 (-scale).toNat)

def ofDecimal (isNegative : Bool) (digits : Nat) (scale : Int) : Double :=
  ⟨.ofNat (decimalBits digits scale + if isNegative then Nat.pow 2 63 else 0)⟩

end Double

end SyntaxQuery.Number
