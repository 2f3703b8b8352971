import SyntaxQuery.Journal.Basic
import SyntaxQuery.Selector.Fault
import SyntaxQuery.Selector.Token

namespace SyntaxQuery.Selector

open SyntaxQuery.Journal SyntaxQuery.Text

def skipBlanks (xs : List Lexeme) : List Lexeme :=
  xs.dropWhile Lexeme.isBlank

def readName (what : Expectation) : List Lexeme → Except Fault (String × List Lexeme)
  | [] => .error ⟨.expected what, []⟩
  | x :: xs =>
    match x.body with
    | .ident name => .ok (name, xs)
    | _ => .error ⟨.expected what, x :: xs⟩

def readValue (what : Expectation) : List Lexeme → Except Fault (String × List Lexeme)
  | [] => .error ⟨.expected what, []⟩
  | x :: xs =>
    match x.value? with
    | some text => .ok (text, xs)
    | none => .error ⟨.expected what, x :: xs⟩

def readDelim (what : Expectation) (c : Char) : List Lexeme → Except Fault (Unit × List Lexeme)
  | [] => .error ⟨.expected what, []⟩
  | x :: xs => if x.isDelim c then .ok ((), xs) else .error ⟨.expected what, x :: xs⟩

/-- Reads an operator: an equals sign, with another delimiter directly before it or alone. -/
def readOperator : List Lexeme → Except Fault (String × List Lexeme)
  | [] => .error ⟨.expected .operator, []⟩
  | x :: xs =>
    if x.isDelim '=' then .ok ("=", xs)
    else match x.body, xs with
      | .delim c, y :: ys =>
        if y.isDelim '=' then
          let operator := String.ofList [c, '=']
          if operators.contains operator then .ok (operator, ys)
          else .error ⟨.unknownOperator operator, x :: xs⟩
        else .error ⟨.expected .operator, x :: xs⟩
      | _, _ => .error ⟨.expected .operator, x :: xs⟩

def readFlag : List Lexeme → Except Fault (Option String × List Lexeme)
  | [] => .ok (none, [])
  | x :: xs =>
    match x.body with
    | .ident flag =>
      if caseFlags.contains flag then .ok (some flag, xs)
      else .error ⟨.unknownFlag flag, x :: xs⟩
    | _ => .ok (none, x :: xs)

def readComparison (name : String) (xs : List Lexeme) : Except Fault (Token × List Lexeme) := do
  let (operator, xs) ← readOperator xs
  let (value, xs) ← readValue .attributeValue (skipBlanks xs)
  let (flag, xs) ← readFlag (skipBlanks xs)
  let (_, xs) ← readDelim .closingBracket ']' (skipBlanks xs)
  return (.property name (some operator) (some (.text value)) flag, xs)

def readAttribute (xs : List Lexeme) : Except Fault (Token × List Lexeme) := do
  let (name, xs) ← readName .attributeName (skipBlanks xs)
  match skipBlanks xs with
  | [] => readComparison name []
  | x :: xs =>
    if x.isDelim ']' then return (.property name none none none, xs)
    else readComparison name (x :: xs)

def readArgument (name : String) (xs : List Lexeme) : Except Fault (Token × List Lexeme) := do
  let (argument, xs) ← readValue (.argument name) (skipBlanks xs)
  let (_, xs) ← readDelim .closingParenthesis ')' (skipBlanks xs)
  return (.pseudoClass name (some (.text argument)), xs)

def readPseudoClass (xs : List Lexeme) : Except Fault (Token × List Lexeme) := do
  match ← readName .pseudoClassName xs with
  | (name, []) => return (.pseudoClass name none, [])
  | (name, x :: xs) =>
    if x.isDelim '(' then readArgument name xs else return (.pseudoClass name none, x :: xs)

def readPseudo : List Lexeme → Except Fault (Token × List Lexeme)
  | [] => readPseudoClass []
  | x :: xs =>
    if x.isDelim ':' then do
      let (name, xs) ← readName .pseudoElementName xs
      return (.pseudoElement name, xs)
    else readPseudoClass (x :: xs)

def readSimple (x : Lexeme) (xs : List Lexeme) : Except Fault (Token × List Lexeme) :=
  match x.body with
  | .hash name => .ok (.id name, xs)
  | .delim '.' => do
    let (name, xs) ← readName .className xs
    return (.className name, xs)
  | .delim '[' => readAttribute xs
  | .delim ':' => readPseudo xs
  | _ => .error ⟨.unexpected, x :: xs⟩

def combinator? (x : Lexeme) (xs : List Lexeme) : Option (String × List Lexeme) :=
  match x.body with
  | .delim '>' => some (child, xs)
  | .delim '+' => some (nextSibling, xs)
  | .delim '~' => some (previousSibling, xs)
  | .delim '|' =>
    match xs with
    | y :: ys => if y.isDelim '|' then some (column, ys) else none
    | [] => none
  | _ => none

/-- Where a reader of selectors stands: before all tokens, behind a combinator, or behind a simple
selector and perhaps blanks. -/
inductive Place where
  | start
  | afterCombinator
  | afterSimple (blanks : Bool)
deriving DecidableEq

def Place.afterBlank : Place → Place
  | afterSimple _ => afterSimple true
  | place => place

def Place.join (token : Token) : Place → List Token
  | afterSimple true => [.combinator descendant, token]
  | _ => [token]

theorem skipBlanks_length (xs : List Lexeme) : (skipBlanks xs).length ≤ xs.length :=
  (List.dropWhile_suffix _).length_le

theorem readName_length {what : Expectation} {xs ys : List Lexeme} {name : String}
    (h : readName what xs = .ok (name, ys)) : ys.length < xs.length := by
  unfold readName at h
  grind

theorem readValue_length {what : Expectation} {xs ys : List Lexeme} {text : String}
    (h : readValue what xs = .ok (text, ys)) : ys.length < xs.length := by
  unfold readValue at h
  grind

theorem readDelim_length {what : Expectation} {c : Char} {xs ys : List Lexeme} {u : Unit}
    (h : readDelim what c xs = .ok (u, ys)) : ys.length < xs.length := by
  unfold readDelim at h
  grind

theorem readOperator_length {xs ys : List Lexeme} {operator : String}
    (h : readOperator xs = .ok (operator, ys)) : ys.length < xs.length := by
  unfold readOperator at h
  grind

theorem readFlag_length {xs ys : List Lexeme} {flag : Option String}
    (h : readFlag xs = .ok (flag, ys)) : ys.length ≤ xs.length := by
  unfold readFlag at h
  grind

theorem ok_of_bind {ε α β : Type} {x : Except ε α} {f : α → Except ε β} {b : β}
    (h : (x >>= f) = .ok b) : ∃ a, x = .ok a ∧ f a = .ok b := by
  cases x with
  | error e => cases h
  | ok a => exact ⟨a, rfl, h⟩

theorem readComparison_length {name : String} {xs ys : List Lexeme} {token : Token}
    (h : readComparison name xs = .ok (token, ys)) : ys.length < xs.length := by
  obtain ⟨⟨_, as⟩, ha, h⟩ := ok_of_bind h
  obtain ⟨⟨_, bs⟩, hb, h⟩ := ok_of_bind h
  obtain ⟨⟨_, cs⟩, hc, h⟩ := ok_of_bind h
  obtain ⟨⟨_, ds⟩, hd, h⟩ := ok_of_bind h
  cases h
  have := readOperator_length ha
  have := readValue_length hb
  have := readFlag_length hc
  have := readDelim_length hd
  have := skipBlanks_length as
  have := skipBlanks_length bs
  have := skipBlanks_length cs
  omega

theorem readAttribute_length {xs ys : List Lexeme} {token : Token}
    (h : readAttribute xs = .ok (token, ys)) : ys.length < xs.length := by
  obtain ⟨⟨_, as⟩, ha, h⟩ := ok_of_bind h
  have := readName_length ha
  have := skipBlanks_length xs
  have hs := skipBlanks_length as
  dsimp only at h
  generalize skipBlanks as = bs at h hs
  cases bs with
  | nil => exact absurd (readComparison_length h) (Nat.not_lt_zero _)
  | cons b bs =>
    simp only [List.length_cons] at hs
    dsimp only at h
    split at h
    · cases h
      omega
    · have := readComparison_length h
      simp only [List.length_cons] at this
      omega

theorem readArgument_length {name : String} {xs ys : List Lexeme} {token : Token}
    (h : readArgument name xs = .ok (token, ys)) : ys.length < xs.length := by
  obtain ⟨⟨_, as⟩, ha, h⟩ := ok_of_bind h
  obtain ⟨⟨_, bs⟩, hb, h⟩ := ok_of_bind h
  cases h
  have := readValue_length ha
  have := readDelim_length hb
  have := skipBlanks_length xs
  have := skipBlanks_length as
  omega

theorem readPseudoClass_length {xs ys : List Lexeme} {token : Token}
    (h : readPseudoClass xs = .ok (token, ys)) : ys.length < xs.length := by
  obtain ⟨⟨_, as⟩, ha, h⟩ := ok_of_bind h
  have := readName_length ha
  cases as with
  | nil =>
    dsimp only at h
    cases h
    exact this
  | cons a as =>
    dsimp only at h
    split at h
    · have := readArgument_length h
      simp only [List.length_cons] at *
      omega
    · cases h
      assumption

theorem readPseudo_length {xs ys : List Lexeme} {token : Token}
    (h : readPseudo xs = .ok (token, ys)) : ys.length < xs.length := by
  cases xs with
  | nil => exact readPseudoClass_length h
  | cons x xs =>
    rw [readPseudo] at h
    split at h
    · obtain ⟨⟨_, as⟩, ha, h⟩ := ok_of_bind h
      cases h
      have := readName_length ha
      simp only [List.length_cons]
      omega
    · exact readPseudoClass_length h

theorem readSimple_length {x : Lexeme} {xs ys : List Lexeme} {token : Token}
    (h : readSimple x xs = .ok (token, ys)) : ys.length ≤ xs.length := by
  unfold readSimple at h
  split at h
  · cases h
    exact Nat.le_refl _
  · obtain ⟨⟨_, as⟩, ha, h⟩ := ok_of_bind h
    cases h
    exact Nat.le_of_lt (readName_length ha)
  · exact Nat.le_of_lt (readAttribute_length h)
  · exact Nat.le_of_lt (readPseudo_length h)
  · cases h

theorem combinator?_length {x : Lexeme} {xs ys : List Lexeme} {content : String}
    (h : combinator? x xs = some (content, ys)) : ys.length ≤ xs.length := by
  unfold combinator? at h
  grind

/-- Reads the tokens from a place on. -/
def readTokens (place : Place) : List Lexeme → Except Fault (List Token)
  | [] => if place = .afterCombinator then .error ⟨.danglingCombinator, []⟩ else .ok []
  | x :: xs =>
    if x.isBlank then readTokens place.afterBlank xs
    else match hc : combinator? x xs with
      | some (content, ys) =>
        have := combinator?_length hc
        match place with
        | .afterSimple _ => (readTokens .afterCombinator ys).map (.combinator content :: ·)
        | _ => .error ⟨.misplacedCombinator content, x :: xs⟩
      | none =>
        match hs : readSimple x xs with
        | .error fault => .error fault
        | .ok (token, ys) =>
          have := readSimple_length hs
          (readTokens (.afterSimple false) ys).map (place.join token ++ ·)
termination_by xs => xs.length

def parse (selector : String) : Except Malformed (List Token) :=
  match lex selector.toList with
  | .error fault => .error (.lexical fault)
  | .ok xs => (readTokens .start xs).mapError (.structural selector)

def tokenize (selector : String) : Logged (Except Malformed (List Token)) :=
  match parse selector with
  | .error e => pure (.error e)
  | .ok tokens => do
    Logged.write "tree_selector.selector.tokenizer" .debug
      ("Tokenized " ++ quoted selector ++ " into " ++ toString tokens.length ++ " tokens")
    return .ok tokens

end SyntaxQuery.Selector
