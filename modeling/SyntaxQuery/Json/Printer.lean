import SyntaxQuery.Json.Basic

namespace SyntaxQuery.Json

open SyntaxQuery.Number SyntaxQuery.Text

def escapeUnit (n : Nat) : List Char :=
  '\\' :: 'u' :: hexDigits 4 n

def escapeChar (c : Char) : List Char :=
  if c = '"' || c = '\\' then ['\\', c]
  else if c = '\n' then ['\\', 'n']
  else if c = '\r' then ['\\', 'r']
  else if c = '\t' then ['\\', 't']
  else if c = '\x08' then ['\\', 'b']
  else if c = '\x0c' then ['\\', 'f']
  else if ' ' ≤ c && c ≤ '~' then [c]
  else if c.toNat < 0x10000 then escapeUnit c.toNat
  else
    let n := c.toNat - 0x10000
    escapeUnit (0xD800 + n / 0x400) ++ escapeUnit (0xDC00 + n % 0x400)

def writeText (s : String) : String :=
  String.ofList ('"' :: s.toList.flatMap escapeChar ++ ['"'])

def writeReal (x : Double) : List Char :=
  if x.isNaN then ['N', 'a', 'N']
  else if x.isInfinite then (if x.negative then ['-'] else []) ++ infinityName
  else x.text

def lineBreak (step depth : Nat) : String :=
  String.ofList ('\n' :: List.replicate (step * depth) ' ')

mutual

/-- Writes a value at a depth, each item and field on a line of its own, `step` blanks further in
than its collection. -/
def write (step depth : Nat) : Json → String
  | null => "null"
  | truth b => if b then "true" else "false"
  | integer n => String.ofList (decimal n)
  | real x => String.ofList (writeReal x)
  | text s => writeText s
  | array [] => "[]"
  | array (item :: items) =>
    "[" ++ lineBreak step (depth + 1) ++ write step (depth + 1) item ++
      writeItems step (depth + 1) items ++ lineBreak step depth ++ "]"
  | object [] => "\x7b\x7d"
  | object ((name, value) :: fields) =>
    "\x7b" ++ lineBreak step (depth + 1) ++ writeText name ++ ": " ++ write step (depth + 1) value ++
      writeFields step (depth + 1) fields ++ lineBreak step depth ++ "\x7d"

def writeItems (step depth : Nat) : List Json → String
  | [] => ""
  | item :: items =>
    "," ++ lineBreak step depth ++ write step depth item ++ writeItems step depth items

def writeFields (step depth : Nat) : List (String × Json) → String
  | [] => ""
  | (name, value) :: fields =>
    "," ++ lineBreak step depth ++ writeText name ++ ": " ++ write step depth value ++
      writeFields step depth fields

end

mutual

/-- What is written of a value before the first integer in it that is too long. -/
def writeFront (step depth : Nat) : Json → String
  | array items =>
    writeItemsFront step (depth + 1) ("[" ++ lineBreak step (depth + 1)) items
  | object fields =>
    "\x7b" ++ lineBreak step (depth + 1) ++ writeFieldsFront step (depth + 1) fields
  | _ => ""

def writeItemsFront (step depth : Nat) (lead : String) : List Json → String
  | [] => ""
  | item :: items =>
    if item.isShort then
      lead ++ write step depth item ++ writeItemsFront step depth ("," ++ lineBreak step depth) items
    else
      match item with
      | integer _ => ""
      | item => lead ++ writeFront step depth item

def writeFieldsFront (step depth : Nat) : List (String × Json) → String
  | [] => ""
  | (name, value) :: fields =>
    writeText name ++ ": " ++
      if value.isShort then
        write step depth value ++ "," ++ lineBreak step depth ++ writeFieldsFront step depth fields
      else writeFront step depth value

end

def render (step : Nat) (document : Json) : String :=
  write step 0 document

end SyntaxQuery.Json
