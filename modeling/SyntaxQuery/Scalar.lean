import SyntaxQuery.Number.Integer
import SyntaxQuery.Number.Shortest
import SyntaxQuery.Text.Quoted

namespace SyntaxQuery

open SyntaxQuery.Number SyntaxQuery.Text

/-- A single value: what a node property holds and what a selector compares it with. -/
inductive Scalar where
  | text (s : String)
  | integer (n : Int)
  | real (x : Double)
  | truth (b : Bool)
deriving DecidableEq, Inhabited

namespace Scalar

def display : Scalar → String
  | text s => s
  | integer n => String.ofList (decimal n)
  | real x => String.ofList x.text
  | truth b => if b then "True" else "False"

def quoted : Scalar → String
  | text s => Text.quoted s
  | v => v.display

def quotedOption : Option Scalar → String
  | some v => v.quoted
  | none => "None"

def isNumber : Scalar → Bool
  | integer _ => true
  | real _ => true
  | _ => false

def isSet : Scalar → Bool
  | text s => s ≠ ""
  | integer n => n ≠ 0
  | real x => !x.isZero
  | truth b => b

def whole? : Scalar → Option Int
  | text _ => none
  | integer n => some n
  | real x => if x.isInt x.truncate then some x.truncate else none
  | truth b => some (if b then 1 else 0)

/-- The same value. Numbers are the same across their kinds, and the truth values are one and zero. -/
def same : Scalar → Scalar → Bool
  | text s, text t => s = t
  | text _, _ => false
  | _, text _ => false
  | real x, real y => x.same y
  | a, b => a.whole?.isSome && a.whole? = b.whole?

end Scalar

end SyntaxQuery
