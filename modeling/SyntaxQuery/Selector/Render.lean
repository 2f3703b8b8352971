import SyntaxQuery.Selector.Token

namespace SyntaxQuery.Selector

def isBareStart (c : Char) : Bool :=
  c.isAlpha || c = '_'

def isBareChar (c : Char) : Bool :=
  isBareStart c || c.isDigit || c = '-'

def isBareName : List Char → Bool
  | '-' :: c :: cs => isBareStart c && cs.all isBareChar
  | c :: cs => isBareStart c && cs.all isBareChar
  | [] => false

def isBareInteger : List Char → Bool
  | c :: cs =>
    if c = '+' || c = '-' then !cs.isEmpty && cs.all Char.isDigit
    else (c :: cs).all Char.isDigit
  | [] => false

/-- A value that is written as it is: a plain name or integer, with one line feed behind it at
most. -/
def isBare (cs : List Char) : Bool :=
  let core := if cs.getLast? = some '\n' then cs.dropLast else cs
  isBareName core || isBareInteger core

def enquote (cs : List Char) : List Char :=
  '"' :: cs.flatMap (fun c => if c = '\\' || c = '"' then ['\\', c] else [c]) ++ ['"']

def renderValue (value : Option Scalar) : String :=
  let text := (value.map Scalar.display).getD ""
  if isBare text.toList then text else String.ofList (enquote text.toList)

def renderFlag : Option String → String
  | some flag => if flag = "" then "" else " " ++ flag
  | none => ""

def Token.render : Token → String
  | .className name => "." ++ name
  | .id name => "#" ++ name
  | .property name none _ _ => "[" ++ name ++ "]"
  | .property name (some operator) value flag =>
    "[" ++ name ++ operator ++ renderValue value ++ renderFlag flag ++ "]"
  | .combinator content => if content = descendant then " " else " " ++ content ++ " "
  | .pseudoClass name none => ":" ++ name
  | .pseudoClass name (some argument) => ":" ++ name ++ "(" ++ argument.display ++ ")"
  | .pseudoElement name => "::" ++ name
  | .foreign _ text _ => text

def render : List Token → String
  | [] => ""
  | t :: ts => t.render ++ render ts

end SyntaxQuery.Selector
