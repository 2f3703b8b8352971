namespace SyntaxQuery.Text

def octets (s : String) : List UInt8 :=
  s.toUTF8.toList

/-- What a first octet asks for: how many octets follow, the range of the first of them, and the
bits that it brings. -/
structure Lead where
  tails : Nat
  low : Nat
  high : Nat
  bits : Nat

/-- Overlong forms, surrogates and numbers beyond the last code point have no first octet, or a
narrower range for the second one. -/
def lead? (octet : Nat) : Option Lead :=
  if octet < 0x80 then some ⟨0, 0x80, 0xBF, octet⟩
  else if octet < 0xC2 then none
  else if octet < 0xE0 then some ⟨1, 0x80, 0xBF, octet - 0xC0⟩
  else if octet = 0xE0 then some ⟨2, 0xA0, 0xBF, 0⟩
  else if octet = 0xED then some ⟨2, 0x80, 0x9F, 0xD⟩
  else if octet < 0xF0 then some ⟨2, 0x80, 0xBF, octet - 0xE0⟩
  else if octet = 0xF0 then some ⟨3, 0x90, 0xBF, 0⟩
  else if octet < 0xF4 then some ⟨3, 0x80, 0xBF, octet - 0xF0⟩
  else if octet = 0xF4 then some ⟨3, 0x80, 0x8F, 4⟩
  else none

inductive Reading where
  | between
  | within (pending : Lead)

abbrev Decoded := Option Char

def Reading.first (octet : Nat) : List Decoded × Reading :=
  match lead? octet with
  | none => ([none], .between)
  | some lead =>
    if lead.tails = 0 then ([some (Char.ofNat lead.bits)], .between) else ([], .within lead)

def Reading.step (octet : Nat) : Reading → List Decoded × Reading
  | .between => Reading.first octet
  | .within pending =>
    if pending.low ≤ octet && octet ≤ pending.high then
      let bits := pending.bits * 64 + (octet - 0x80)
      if pending.tails = 1 then ([some (Char.ofNat bits)], .between)
      else ([], .within ⟨pending.tails - 1, 0x80, 0xBF, bits⟩)
    else
      let (decoded, state) := Reading.first octet
      (none :: decoded, state)

/-- Reads octets as characters; each longest beginning of a character that stays unfinished is one
fault. -/
def Reading.run : Reading → List UInt8 → List Decoded
  | .between, [] => []
  | .within _, [] => [none]
  | state, octet :: rest =>
    let (decoded, state) := state.step octet.toNat
    decoded ++ state.run rest

def decode (bytes : List UInt8) : List Decoded :=
  Reading.run .between bytes

def decodeLossy (bytes : List UInt8) : String :=
  String.ofList ((decode bytes).map (·.getD '\uFFFD'))

def decode? (bytes : List UInt8) : Option String :=
  ((decode bytes).mapM id).map String.ofList

end SyntaxQuery.Text
