import SyntaxQuery.Number.Double

namespace SyntaxQuery.Number

/-- A decimal fraction `0.d₁d₂… · 10 ^ point`, by its digits. -/
structure Fraction where
  digits : List Char
  point : Int

def zerosBehindPoint : Nat → Nat → Nat → Nat
  | 0, _, _ => 0
  | fuel + 1, n, d => if n * 10 < d then zerosBehindPoint fuel (n * 10) d + 1 else 0

def leadingPoint (n d : Nat) : Int :=
  if n < d then -zerosBehindPoint 400 n d else (Nat.toDigits 10 (n / d)).length

def Double.withDigits? (x : Double) (point : Int) (count : Nat) : Option Nat :=
  let place := point - count
  let scale := Nat.pow 2 x.exponent.toNat * Nat.pow 10 (-place).toNat
  let unit := 4 * Nat.pow 10 place.toNat * Nat.pow 2 (-x.exponent).toNat
  let value := 4 * x.significand * scale
  let below := if x.significand = Nat.pow 2 52 && x.field > 1 then 1 else 2
  let first := (4 * x.significand - below) * scale
  let last := (4 * x.significand + 2) * scale
  let fits (c : Nat) : Bool :=
    if x.significand % 2 = 0 then first ≤ c * unit && c * unit ≤ last
    else first < c * unit && c * unit < last
  let c := value / unit
  let upper := (c + 1) * unit - value
  let lower := value - c * unit
  if fits c && (!fits (c + 1) || lower < upper || lower = upper && c % 2 = 0) then some c
  else if fits (c + 1) then some (c + 1)
  else none

/-- The fewest digits that read back as the double. -/
def Double.shortest (x : Double) : Fraction :=
  let point := leadingPoint x.numerator x.denominator
  let counts := List.range 17
  match counts.findSome? fun k => (x.withDigits? point (k + 1)).map (·, k + 1) with
  | some (n, count) =>
    let ds := Nat.toDigits 10 n
    ⟨(ds.reverse.dropWhile (· = '0')).reverse, point + ds.length - count⟩
  | none => ⟨['0'], 1⟩

def powerText (n : Int) : List Char :=
  let ds := Nat.toDigits 10 n.natAbs
  (if n < 0 then '-' else '+') :: (if ds.length < 2 then '0' :: ds else ds)

/-- Writes a fraction with a point, or with a power of ten when the point lies four places before
the digits or sixteen behind their beginning. -/
def Fraction.text (f : Fraction) : List Char :=
  if f.point ≤ -4 || f.point > 16 then
    f.digits.take 1 ++ (if f.digits.length > 1 then '.' :: f.digits.drop 1 else []) ++
      'e' :: powerText (f.point - 1)
  else if f.point ≤ 0 then
    '0' :: '.' :: List.replicate (-f.point).toNat '0' ++ f.digits
  else if f.digits.length ≤ f.point.toNat then
    f.digits ++ List.replicate (f.point.toNat - f.digits.length) '0' ++ ['.', '0']
  else f.digits.take f.point.toNat ++ '.' :: f.digits.drop f.point.toNat

def Double.text (x : Double) : List Char :=
  let sign := if x.negative && !x.isNaN then ['-'] else []
  let magnitude :=
    if x.isZero then ['0', '.', '0']
    else if x.isInfinite then ['i', 'n', 'f']
    else if x.isNaN then ['n', 'a', 'n']
    else x.shortest.text
  sign ++ magnitude

end SyntaxQuery.Number
