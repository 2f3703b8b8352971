import SyntaxQuery.Scalar

namespace SyntaxQuery.Selector

/-- One step of a selector: `.name`, `#name`, `[name=value flag]`, what stands between two compounds,
`:name(argument)`, and `::name`. -/
inductive Token where
  | className (name : String)
  | id (name : String)
  | property (name : String) (operator : Option String) (value : Option Scalar)
      (flag : Option String)
  | combinator (content : String)
  | pseudoClass (name : String) (argument : Option Scalar)
  | pseudoElement (name : String)
  /-- Something that is no step, with its text and what it calls its kind; two of them are the same
  if their serial numbers are. -/
  | foreign (serial : Nat) (text : String) (kind : Option Scalar)
deriving DecidableEq, Inhabited

def descendant : String := " "

def child : String := ">"

def nextSibling : String := "+"

def previousSibling : String := "~"

/-- Recognized, but without a meaning. -/
def column : String := "||"

def operators : List String := ["=", "~=", "|=", "^=", "$=", "*="]

def caseFlags : List String := ["i", "I", "s", "S"]

namespace Token

def isCombinator : Token → Bool
  | combinator _ => true
  | _ => false

def sameOption : Option Scalar → Option Scalar → Bool
  | some a, some b => a.same b
  | none, none => true
  | _, _ => false

def same : Token → Token → Bool
  | property name operator value flag, property name' operator' value' flag' =>
    name = name' && operator = operator' && sameOption value value' && flag = flag'
  | pseudoClass name argument, pseudoClass name' argument' =>
    name = name' && sameOption argument argument'
  | foreign serial _ _, foreign serial' _ _ => serial = serial'
  | a, b => a = b

def typeName : Token → String
  | className _ => "ClassToken"
  | id _ => "IdToken"
  | property .. => "AttributeToken"
  | combinator _ => "CombinatorToken"
  | pseudoClass .. => "PseudoClassToken"
  | pseudoElement _ => "PseudoElementToken"
  | foreign _ text _ => text

def quotedText : Option String → String
  | some s => Text.quoted s
  | none => "None"

def parts : Token → List (String × String)
  | className name => [("name", Text.quoted name)]
  | id name => [("name", Text.quoted name)]
  | property name operator value flag =>
    [("name", Text.quoted name), ("operator", quotedText operator),
      ("value", Scalar.quotedOption value), ("case_sensitivity", quotedText flag)]
  | combinator content => [("content", Text.quoted content)]
  | pseudoClass name argument =>
    [("name", Text.quoted name), ("argument", Scalar.quotedOption argument)]
  | pseudoElement name => [("name", Text.quoted name)]
  | foreign .. => []

def describe (t : Token) : String :=
  match t with
  | foreign _ text _ => text
  | t =>
    let shown := t.parts.map fun part => part.1 ++ "=" ++ part.2
    t.typeName ++ "(" ++ String.intercalate ", " shown ++ ")"

end Token

def distinct : List Token → Nat
  | [] => 0
  | t :: ts => if ts.any t.same then distinct ts else distinct ts + 1

def sameTokens : List Token → List Token → Bool
  | [], [] => true
  | a :: as, b :: bs => a.same b && sameTokens as bs
  | _, _ => false

end SyntaxQuery.Selector
