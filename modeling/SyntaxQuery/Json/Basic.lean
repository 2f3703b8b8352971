import SyntaxQuery.Scalar
import SyntaxQuery.Table

namespace SyntaxQuery

open SyntaxQuery.Number

/-- A document of nested values. Integers and doubles are different numbers. -/
inductive Json where
  | null
  | truth (b : Bool)
  | integer (n : Int)
  | real (x : Double)
  | text (s : String)
  | array (items : List Json)
  | object (fields : List (String × Json))
deriving Inhabited

namespace Json

def infinityName : List Char :=
  ['I', 'n', 'f', 'i', 'n', 'i', 't', 'y']

def isSet : Json → Bool
  | null => false
  | truth b => b
  | integer n => n ≠ 0
  | real x => !x.isZero
  | text s => s ≠ ""
  | array items => !items.isEmpty
  | object fields => !fields.isEmpty

def text? : Json → Option String
  | text s => some s
  | _ => none

def fields? : Json → Option (Table Json)
  | object fields => some fields
  | _ => none

def typeName : Json → String
  | null => "NoneType"
  | truth _ => "bool"
  | integer _ => "int"
  | real _ => "float"
  | text _ => "str"
  | array _ => "list"
  | object _ => "dict"

mutual

def isShort : Json → Bool
  | integer n => Number.isShort n
  | array items => areShort items
  | object fields => haveShort fields
  | _ => true

def areShort : List Json → Bool
  | [] => true
  | item :: items => item.isShort && areShort items

def haveShort : List (String × Json) → Bool
  | [] => true
  | (_, value) :: fields => value.isShort && haveShort fields

end

def ofScalar : Scalar → Json
  | .text s => text s
  | .integer n => integer n
  | .real x => real x
  | .truth b => truth b

/-- The single value that a document is. Of a collection only whether it holds anything is kept. -/
def toScalar? : Json → Option Scalar
  | null => none
  | truth b => some (.truth b)
  | integer n => some (.integer n)
  | real x => some (.real x)
  | text s => some (.text s)
  | array items => some (.truth !items.isEmpty)
  | object fields => some (.truth !fields.isEmpty)

end Json

end SyntaxQuery
