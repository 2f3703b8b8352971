import SyntaxQuery.Selector.Lexer

namespace SyntaxQuery.Selector

open SyntaxQuery.Text

inductive Expectation where
  | className
  | attributeName
  | operator
  | attributeValue
  | closingBracket
  | pseudoElementName
  | pseudoClassName
  | argument (name : String)
  | closingParenthesis
deriving DecidableEq

def Expectation.describe : Expectation → String
  | className => "class name"
  | attributeName => "attribute name"
  | operator => "attribute operator or ']'"
  | attributeValue => "attribute value"
  | closingBracket => "']'"
  | pseudoElementName => "pseudo-element name"
  | pseudoClassName => "pseudo-class name"
  | argument name => "argument for :" ++ name ++ "()"
  | closingParenthesis => "')'"

inductive Cause where
  | expected (what : Expectation)
  | unknownOperator (operator : String)
  | unknownFlag (flag : String)
  | misplacedCombinator (content : String)
  | unexpected
  | danglingCombinator
deriving DecidableEq

/-- Why lexemes form no selector, and what is left of them from the blamed one on. -/
structure Fault where
  cause : Cause
  rest : List Lexeme
deriving DecidableEq

namespace Fault

def blamed (fault : Fault) : String :=
  match fault.rest with
  | [] => "end of selector"
  | x :: _ => x.body.describe

def position (length : Nat) (fault : Fault) : Nat :=
  match fault.rest with
  | [] => length
  | x :: _ => x.position

def reason (fault : Fault) : String :=
  match fault.cause with
  | .expected what => "Expected " ++ what.describe ++ ", got " ++ fault.blamed
  | .unknownOperator operator => "Unknown attribute operator " ++ quoted operator
  | .unknownFlag flag => "Unknown case flag " ++ quoted flag
  | .misplacedCombinator content => "Unexpected combinator " ++ quoted content
  | .unexpected => "Unexpected " ++ fault.blamed
  | .danglingCombinator => "Selector ends with a combinator"

end Fault

inductive Malformed where
  | lexical (fault : LexFault)
  | structural (selector : String) (fault : Fault)

def Malformed.message : Malformed → String
  | .lexical (.unclosed position) => "Unclosed string at " ++ toString position
  | .lexical (.broken position) => "Invalid string at " ++ toString position
  | .structural selector fault =>
    fault.reason ++ " at position " ++ toString (fault.position selector.length) ++ " in " ++
      quoted selector

end SyntaxQuery.Selector
