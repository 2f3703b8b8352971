import SyntaxQuery.Journal.Basic
import SyntaxQuery.Scalar
import SyntaxQuery.Text.Lowercase
import SyntaxQuery.Text.Basic

namespace SyntaxQuery.Query

open SyntaxQuery.Journal SyntaxQuery.Number SyntaxQuery.Text

inductive Operator where
  | equal
  | word
  | dash
  | starts
  | ends
  | holds
deriving DecidableEq

def Operator.ofText? : String → Option Operator
  | "=" => some equal
  | "~=" => some word
  | "|=" => some dash
  | "^=" => some starts
  | "$=" => some ends
  | "*=" => some holds
  | _ => none

def minds (flag : Option String) : Bool :=
  flag = some "s" || flag = some "S"

def literalText (literal : Option Scalar) : String :=
  (literal.map Scalar.display).getD "None"

/-- The value and the literal in the form in which they are compared, if there is one: as they are
where case matters, else in lower case for text and as a leading integer for a number. -/
def normalize (value : Scalar) (literal : Option Scalar) (flag : Option String) :
    Option (Scalar × Scalar) :=
  if minds flag then literal.map (value, ·)
  else match value with
    | .text s => some (.text (lowercase s), .text (lowercase (literalText literal)))
    | value => (leadingInteger? (literalText literal).toList).map fun n => (value, .integer n)

def Operator.compareText (operator : Operator) (value literal : List Char) : Bool :=
  match operator with
  | equal => value = literal
  | word => (pieces ' ' value).contains literal
  | dash => value = literal || (pieces '-' value).head? = some literal
  | starts => literal.isPrefixOf value
  | ends => literal.isSuffixOf value
  | holds => occursIn literal value

/-- The comparison of two values. Numbers are equal as numbers; all else is compared as text. -/
def Operator.compare (operator : Operator) (value literal : Scalar) : Bool :=
  if operator = equal && value.isNumber && literal.isNumber then value.same literal
  else operator.compareText value.display.toList literal.display.toList

def isComparable : Scalar → Bool
  | .truth _ => false
  | _ => true

def satisfies (operator : Operator) (value : Option Scalar) (literal : Option Scalar)
    (flag : Option String) : Bool :=
  match value with
  | none => false
  | some value =>
    isComparable value &&
      (normalize value literal flag).any fun (value, literal) => operator.compare value literal

/-- Whether an integer is read from the literal that a value is compared with. -/
def readsInteger (value : Option Scalar) (operator : Option String) (flag : Option String) : Bool :=
  value.any Scalar.isNumber && (operator.bind Operator.ofText?).isSome && !minds flag

def isLong (literal : Option Scalar) : Bool :=
  digitLimit < (leadingDigits (literalText literal).toList).length

/-- Whether a value passes the test of a property. Without an operator it has to be set. The literal
must not be too long where an integer is read from it; here it is read even so. -/
def accepts (value : Option Scalar) (operator : Option String) (literal : Option Scalar)
    (flag : Option String) : Logged Bool :=
  match operator with
  | none => pure (value.any Scalar.isSet)
  | some text =>
    match Operator.ofText? text with
    | some operator => pure (satisfies operator value literal flag)
    | none => do
      Logged.write "tree_selector.selector.attributes" .warning
        ("Unrecognized attribute operator: " ++ text)
      return false

end SyntaxQuery.Query
