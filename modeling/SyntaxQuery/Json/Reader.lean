import SyntaxQuery.Json.Basic

namespace SyntaxQuery.Json.Reader

open SyntaxQuery.Number

def isGap (c : Char) : Bool :=
  c = ' ' || c = '\t' || c = '\n' || c = '\r'

def skip (cs : List Char) : List Char :=
  cs.dropWhile isGap

def hexValue? (c : Char) : Option Nat :=
  if c.isDigit then some (c.toNat - 48)
  else if 'a' ≤ c && c ≤ 'f' then some (c.toNat - 87)
  else if 'A' ≤ c && c ≤ 'F' then some (c.toNat - 55)
  else none

def escaped? (c : Char) : Option Char :=
  if c = '"' || c = '\\' || c = '/' then some c
  else if c = 'b' then some '\x08'
  else if c = 'f' then some '\x0c'
  else if c = 'n' then some '\n'
  else if c = 'r' then some '\r'
  else if c = 't' then some '\t'
  else none

def unit? (a b c d : Char) : Option Nat :=
  ([a, b, c, d].mapM hexValue?).map fun ds => ds.foldl (fun n x => 16 * n + x) 0

def isHighHalf (n : Nat) : Bool :=
  0xD800 ≤ n && n < 0xDC00

def isLowHalf (n : Nat) : Bool :=
  0xDC00 ≤ n && n < 0xE000

/-- The characters that code points and pairs of sixteen-bit units are. -/
def joinUnits : List Nat → List Char
  | [] => []
  | [n] => [Char.ofNat n]
  | high :: low :: rest =>
    if isHighHalf high && isLowHalf low then
      Char.ofNat (0x10000 + (high - 0xD800) * 0x400 + (low - 0xDC00)) :: joinUnits rest
    else Char.ofNat high :: joinUnits (low :: rest)

def readText (done : List Nat) : List Char → Option (String × List Char)
  | [] => none
  | '"' :: cs => some (String.ofList (joinUnits done.reverse), cs)
  | '\\' :: 'u' :: a :: b :: c :: d :: cs =>
    match unit? a b c d with
    | some n => readText (n :: done) cs
    | none => none
  | '\\' :: c :: cs =>
    match escaped? c with
    | some e => readText (e.toNat :: done) cs
    | none => none
  | c :: cs => if c.toNat < 0x20 || c = '\\' then none else readText (c.toNat :: done) cs

def natOf (ds : List Char) : Nat :=
  ds.foldl (fun n c => 10 * n + (c.toNat - 48)) 0

def takeDigits (cs : List Char) : List Char × List Char :=
  cs.span Char.isDigit

def readPower : List Char → Option (Int × List Char)
  | mark :: cs =>
    if mark = 'e' || mark = 'E' then
      let (negative, rest) := takeSign cs
      match takeDigits rest with
      | ([], _) => none
      | (ds, rest) => some (withSign negative (natOf ds), rest)
    else none
  | [] => none

def readPlaces : List Char → Option (List Char × List Char)
  | '.' :: cs =>
    match takeDigits cs with
    | ([], _) => none
    | (ds, rest) => some (ds, rest)
  | _ => none

def readWhole : List Char → List Char × List Char
  | '0' :: cs => (['0'], cs)
  | cs => takeDigits cs

def readBehind (negative : Bool) (ds rest : List Char) : Option (Json × List Char) :=
  match readPlaces rest with
  | none =>
    match readPower rest with
    | none =>
      if ds.length ≤ digitLimit then some (.integer (withSign negative (natOf ds)), rest) else none
    | some (power, rest) => some (.real (Double.ofDecimal negative (natOf ds) power), rest)
  | some (places, rest) =>
    let (power, rest) := (readPower rest).getD (0, rest)
    some (.real (Double.ofDecimal negative (natOf (ds ++ places)) (power - places.length)), rest)

def readNumber (negative : Bool) (cs : List Char) : Option (Json × List Char) :=
  match readWhole cs with
  | ([], _) => none
  | (ds, rest) => readBehind negative ds rest

def readAmount (negative : Bool) (cs : List Char) : Option (Json × List Char) :=
  if infinityName.isPrefixOf cs then
    some (.real (.infinity negative), cs.drop infinityName.length)
  else readNumber negative cs

mutual

/-- Reads a value. Every call uses up one unit of `fuel`. -/
def readValue : Nat → List Char → Option (Json × List Char)
  | 0, _ => none
  | fuel + 1, cs =>
    match skip cs with
    | '"' :: cs => (readText [] cs).map fun (s, rest) => (.text s, rest)
    | '[' :: cs =>
      match skip cs with
      | ']' :: rest => some (.array [], rest)
      | rest => readItems fuel [] rest
    | '\x7b' :: cs =>
      match skip cs with
      | '\x7d' :: rest => some (.object [], rest)
      | rest => readFields fuel [] rest
    | 'n' :: 'u' :: 'l' :: 'l' :: rest => some (.null, rest)
    | 't' :: 'r' :: 'u' :: 'e' :: rest => some (.truth true, rest)
    | 'f' :: 'a' :: 'l' :: 's' :: 'e' :: rest => some (.truth false, rest)
    | 'N' :: 'a' :: 'N' :: rest => some (.real .nan, rest)
    | '-' :: cs => readAmount true cs
    | cs => readAmount false cs

def readItems : Nat → List Json → List Char → Option (Json × List Char)
  | 0, _, _ => none
  | fuel + 1, done, cs =>
    match readValue fuel cs with
    | none => none
    | some (item, rest) =>
      match skip rest with
      | ',' :: rest => readItems fuel (item :: done) rest
      | ']' :: rest => some (.array (item :: done).reverse, rest)
      | _ => none

/-- Reads the fields of an object from the next one on. A name that comes again takes its new value
to its first place. -/
def readFields : Nat → Table Json → List Char → Option (Json × List Char)
  | 0, _, _ => none
  | fuel + 1, done, cs =>
    match skip cs with
    | '"' :: cs =>
      match readText [] cs with
      | none => none
      | some (name, rest) =>
        match skip rest with
        | ':' :: rest =>
          match readValue fuel rest with
          | none => none
          | some (value, rest) =>
            let done := done.put name value
            match skip rest with
            | ',' :: rest => readFields fuel done rest
            | '\x7d' :: rest => some (.object done, rest)
            | _ => none
        | _ => none
    | _ => none

end

end Reader

/-- Whether each escape of half a pair, from a place on, is next to that of the other half. A half
without the other is no character, so no text here holds it. -/
def hasWholePairs (begun : Bool) : List Char → Bool
  | [] => !begun
  | '\\' :: 'u' :: a :: b :: c :: d :: cs =>
    match Reader.unit? a b c d with
    | some n => Reader.isLowHalf n == begun && hasWholePairs (Reader.isHighHalf n) cs
    | none => !begun && hasWholePairs false cs
  | '\\' :: _ :: cs => !begun && hasWholePairs false cs
  | _ :: cs => !begun && hasWholePairs false cs

/-- Reads a whole document; nothing but white space may surround the value. -/
def parse? (s : String) : Option Json :=
  let cs := s.toList
  match Reader.readValue (2 * cs.length + 2) cs with
  | some (document, rest) => if (Reader.skip rest).isEmpty then some document else none
  | none => none

end SyntaxQuery.Json
