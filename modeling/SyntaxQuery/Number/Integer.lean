import SyntaxQuery.Text.Basic

namespace SyntaxQuery.Number

open SyntaxQuery.Text

/-- Integers of more digits are neither read from a text nor written out. -/
def digitLimit : Nat := 4300

def digits (n : Nat) : List Char :=
  Nat.toDigits 10 n

def decimal : Int → List Char
  | .ofNat n => digits n
  | .negSucc n => '-' :: digits (n + 1)

def ofDigits? : Nat → List Char → Option Nat
  | n, [] => some n
  | n, c :: cs => (digitValue? c).bind fun d => ofDigits? (10 * n + d) cs

def takeSign : List Char → Bool × List Char
  | '-' :: cs => (true, cs)
  | '+' :: cs => (false, cs)
  | cs => (false, cs)

def withSign (negative : Bool) (n : Nat) : Int :=
  if negative then -n else n

def isShort (n : Int) : Bool :=
  (digits n.natAbs).length ≤ digitLimit

def leadingDigits (cs : List Char) : List Char :=
  (takeSign (cs.dropWhile isBlank)).2.takeWhile isDigit

def leadingInteger? (cs : List Char) : Option Int :=
  match leadingDigits cs with
  | [] => none
  | ds => (ofDigits? 0 ds).map (withSign (takeSign (cs.dropWhile isBlank)).1)

/-- Takes the underscores out of a run of digits; each must stand alone between two digits. -/
def ungroup? : List Char → Option (List Char)
  | [] => none
  | [c] => if c = '_' then none else some [c]
  | c :: '_' :: cs => if c = '_' then none else (ungroup? cs).map (c :: ·)
  | c :: cs => (ungroup? cs).map (c :: ·)

/-- The integer that a whole text is, between white space. -/
def wholeInteger? (cs : List Char) : Option Int :=
  let core := ((cs.dropWhile isSpace).reverse.dropWhile isSpace).reverse
  let (negative, rest) := takeSign core
  (ungroup? rest).bind fun ds =>
    if ds.length ≤ digitLimit then (ofDigits? 0 ds).map (withSign negative) else none

end SyntaxQuery.Number
