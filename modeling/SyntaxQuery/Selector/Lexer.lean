import SyntaxQuery.Selector.Escape
import SyntaxQuery.Selector.Lexeme

namespace SyntaxQuery.Selector

def isNameStart (c : Char) : Bool :=
  c.isAlpha || c = '_' || c.toNat ≥ 128

def isNameChar (c : Char) : Bool :=
  isNameStart c || c.isDigit || c = '-'

/-- The length of the longest run of name characters and escapes, from `passed` characters on that
are part of it already. -/
def nameRun : Nat → List Char → Nat
  | _, [] => 0
  | passed + 1, _ :: cs => nameRun passed cs + 1
  | 0, c :: cs =>
    if isNameChar c then nameRun 0 cs + 1
    else match escapeLength (c :: cs) with
      | 0 => 0
      | n + 1 => nameRun n cs + 1

def nameStartLength : List Char → Nat
  | [] => 0
  | c :: cs => if isNameStart c then 1 else escapeLength (c :: cs)

def identLength : List Char → Nat
  | '-' :: cs =>
    let start := nameStartLength cs
    if start = 0 then 0 else 1 + nameRun start cs
  | cs =>
    let start := nameStartLength cs
    if start = 0 then 0 else nameRun start cs

def quotedRun (mark : Char) : Nat → List Char → Nat
  | _, [] => 0
  | passed + 1, _ :: cs => quotedRun mark passed cs + 1
  | 0, c :: cs =>
    if c = '\\' then
      match quotedEscapeLength (c :: cs) with
      | 0 => 0
      | n + 1 => quotedRun mark n cs + 1
    else if c = mark || isLineEnd c then 0
    else quotedRun mark 0 cs + 1

def digitRun (cs : List Char) : Nat :=
  (cs.takeWhile Char.isDigit).length

def numberLength (cs : List Char) : Nat :=
  let sign := match cs with
    | c :: _ => if c = '+' || c = '-' then 1 else 0
    | [] => 0
  let rest := cs.drop sign
  let whole := digitRun rest
  let places := match rest.drop whole with
    | '.' :: more => digitRun more
    | _ => 0
  if places ≠ 0 then sign + whole + 1 + places
  else if whole ≠ 0 then sign + whole
  else 0

def commentRun : List Char → Nat
  | [] => 0
  | [_] => 1
  | '*' :: '/' :: _ => 2
  | _ :: c :: cs => commentRun (c :: cs) + 1

inductive LexFault where
  | unclosed (position : Nat)
  | broken (position : Nat)
deriving DecidableEq

/-- What is read at the beginning of a text `c :: cs`: a lexeme, unless it is a comment, and how many
characters it takes behind the first one. -/
def lexeme (position : Nat) (c : Char) (cs : List Char) : Except LexFault (Option Body × Nat) :=
  let named := identLength (c :: cs)
  let numbered := numberLength (c :: cs)
  if isGap c then .ok (some .blank, (cs.takeWhile isGap).length)
  else if named ≠ 0 then
    .ok (some (.ident (String.ofList (unescapeName ((c :: cs).take named)))), named - 1)
  else if c = '#' && nameRun 0 cs ≠ 0 then
    let n := nameRun 0 cs
    .ok (some (.hash (String.ofList (unescapeName (cs.take n)))), n)
  else if c = '"' || c = '\'' then
    let n := quotedRun c 0 cs
    match cs.drop n with
    | [] => .error (.unclosed position)
    | next :: _ =>
      if next = c then .ok (some (.string (String.ofList (unescapeQuoted (cs.take n)))), n + 1)
      else .error (.broken position)
  else if numbered ≠ 0 then
    .ok (some (.number (String.ofList ((c :: cs).take numbered))), numbered - 1)
  else if c = '/' && cs.head? = some '*' then .ok (none, 1 + commentRun (cs.drop 1))
  else .ok (some (.delim c), 0)

def lexFrom (position : Nat) : Nat → List Char → Except LexFault (List Lexeme)
  | _, [] => .ok []
  | passed + 1, _ :: cs => lexFrom (position + 1) passed cs
  | 0, c :: cs =>
    match lexeme position c cs with
    | .error fault => .error fault
    | .ok (body, passed) =>
      match lexFrom (position + 1) passed cs with
      | .error fault => .error fault
      | .ok rest => .ok (body.toList.map (⟨·, position⟩) ++ rest)

/-- The lexemes of a selector text. A null character counts as a replacement character. -/
def lex (cs : List Char) : Except LexFault (List Lexeme) :=
  lexFrom 0 0 (cs.map fun c => if c = '\x00' then '\uFFFD' else c)

end SyntaxQuery.Selector
