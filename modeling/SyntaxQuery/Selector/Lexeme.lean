import SyntaxQuery.Text.Quoted

namespace SyntaxQuery.Selector

open SyntaxQuery.Text

/-- What a piece of selector text is. Escapes are resolved, and a run of blanks is one. -/
inductive Body where
  | blank
  | ident (name : String)
  | hash (name : String)
  | string (text : String)
  | number (text : String)
  | delim (c : Char)
deriving DecidableEq, Inhabited

structure Lexeme where
  body : Body
  position : Nat
deriving DecidableEq, Inhabited

namespace Body

def describe : Body → String
  | blank => "S ' '"
  | ident name => "IDENT " ++ quoted name
  | hash name => "HASH " ++ quoted name
  | string text => "STRING " ++ quoted text
  | number text => "NUMBER " ++ quoted text
  | delim c => "DELIM " ++ quoted (String.singleton c)

end Body

namespace Lexeme

def isBlank (x : Lexeme) : Bool :=
  x.body = .blank

def isDelim (c : Char) (x : Lexeme) : Bool :=
  x.body = .delim c

def value? (x : Lexeme) : Option String :=
  match x.body with
  | .ident name => some name
  | .string text => some text
  | .number text => some text
  | _ => none

end Lexeme

end SyntaxQuery.Selector
