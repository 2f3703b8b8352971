namespace SyntaxQuery.Selector

def isHex (c : Char) : Bool :=
  c.isDigit || ('a' ≤ c && c ≤ 'f') || ('A' ≤ c && c ≤ 'F')

def hexValue (c : Char) : Nat :=
  if c.isDigit then c.toNat - 48
  else if 'a' ≤ c && c ≤ 'f' then c.toNat - 87
  else c.toNat - 55

def isLineEnd (c : Char) : Bool :=
  c = '\n' || c = '\r' || c = '\x0c'

def isGap (c : Char) : Bool :=
  c = ' ' || c = '\t' || isLineEnd c

def hexRun : Nat → List Char → Nat
  | limit + 1, c :: cs => if isHex c then hexRun limit cs + 1 else 0
  | _, _ => 0

def closingBlank : List Char → Nat
  | '\r' :: '\n' :: _ => 2
  | c :: _ => if isGap c then 1 else 0
  | [] => 0

def numericLength (cs : List Char) : Nat :=
  let n := hexRun 6 cs
  if n = 0 then 0 else n + closingBlank (cs.drop n)

def escapeLength : List Char → Nat
  | '\\' :: c :: cs =>
    if isHex c then numericLength (c :: cs) + 1 else if isLineEnd c then 0 else 2
  | _ => 0

def quotedEscapeLength : List Char → Nat
  | '\\' :: '\r' :: '\n' :: _ => 3
  | '\\' :: c :: cs => if isLineEnd c then 2 else escapeLength ('\\' :: c :: cs)
  | _ => 0

def dropLineEnds : List Char → List Char
  | '\\' :: '\r' :: '\n' :: cs => dropLineEnds cs
  | '\\' :: c :: cs => if isLineEnd c then dropLineEnds cs else '\\' :: dropLineEnds (c :: cs)
  | c :: cs => c :: dropLineEnds cs
  | [] => []

/-- The character with a number; no character has the number zero, that of a surrogate, or one
beyond the last. -/
def charOf (n : Nat) : Char :=
  if n = 0 then '\uFFFD' else if h : n.isValidChar then Char.ofNatAux n h else '\uFFFD'

def hexNumber (count : Nat) (cs : List Char) : Nat :=
  (cs.take count).foldl (fun n c => 16 * n + hexValue c) 0

/-- Puts characters in the place of numeric escapes; the first `passed` characters are part of one
already. -/
def resolveNumeric : Nat → List Char → List Char
  | _, [] => []
  | passed + 1, _ :: cs => resolveNumeric passed cs
  | 0, c :: cs =>
    if c = '\\' && numericLength cs ≠ 0 then
      charOf (hexNumber (hexRun 6 cs) cs) :: resolveNumeric (numericLength cs) cs
    else c :: resolveNumeric 0 cs

def resolveSimple : List Char → List Char
  | '\\' :: '\n' :: cs => '\\' :: '\n' :: resolveSimple cs
  | '\\' :: c :: cs => c :: resolveSimple cs
  | c :: cs => c :: resolveSimple cs
  | [] => []

def unescapeName (cs : List Char) : List Char :=
  resolveSimple (resolveNumeric 0 cs)

def unescapeQuoted (cs : List Char) : List Char :=
  unescapeName (dropLineEnds cs)

end SyntaxQuery.Selector
