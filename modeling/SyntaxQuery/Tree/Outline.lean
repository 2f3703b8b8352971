import SyntaxQuery.Text.Utf8
import SyntaxQuery.Tree.Node

namespace SyntaxQuery.Tree

/-- Where the text of a node comes from: its own source text or that of its children, octets, or a
text that is known already or known to be absent. -/
inductive Content where
  | source
  | octets (bytes : List UInt8)
  | known (text : Option String)

structure Sketch where
  kind : String
  named : Bool
  source : Option String
  content : Content
  revise : Label → Label

inductive Outline where
  | mk (sketch : Sketch) (children : List Outline)

def joinOctets : List (List UInt8) → List UInt8
  | [] => []
  | [part] => part
  | part :: rest => part ++ 32 :: joinOctets rest

namespace Sketch

def plain (kind : String) : Sketch :=
  ⟨kind, true, none, .source, id⟩

def octets (sketch : Sketch) (parts : List (List UInt8)) : List UInt8 :=
  match sketch.content, sketch.source with
  | .octets bytes, _ => bytes
  | .known text, _ => Text.octets (text.getD "")
  | .source, some text => Text.octets text
  | .source, none => joinOctets parts

def text (sketch : Sketch) (bytes : List UInt8) : Option String :=
  match sketch.content with
  | .known text => text
  | _ => some (Text.decodeLossy bytes)

def width (sketch : Sketch) : Nat :=
  (sketch.source.map String.utf8ByteSize).getD 0

def label (sketch : Sketch) (bytes : List UInt8) (start stop : Nat) : Label :=
  sketch.revise
    { kind := sketch.kind
      named := sketch.named
      text := sketch.text bytes
      grammarKind := some (.text sketch.kind)
      kindId := none
      grammarId := none
      descendantCount := none
      missing := some (.truth false)
      extra := none
      error := none
      hasError := some (.truth (sketch.kind = "ERROR"))
      startByte := some (.integer start)
      endByte := some (.integer stop)
      start := ⟨0, start⟩
      stop := ⟨0, stop⟩ }

end Sketch

structure Built where
  node : Node
  bytes : List UInt8
  stop : Nat

namespace Outline

instance : Inhabited Outline := ⟨.mk (.plain "") []⟩

mutual

/-- Builds a tree from an offset on. Leaves take up the length of their source text, and one blank
stands between siblings; without a layout all offsets are zero. -/
def build (laid : Bool) (offset : Nat) : Outline → Built
  | mk sketch children =>
    let parts := buildAll laid offset children
    let stop := match parts.getLast? with
      | some last => last.stop
      | none => offset + sketch.width
    let bytes := sketch.octets (parts.map Built.bytes)
    let label := if laid then sketch.label bytes offset stop else sketch.label bytes 0 0
    ⟨.mk label (parts.map Built.node), bytes, stop⟩

def buildAll (laid : Bool) (offset : Nat) : List Outline → List Built
  | [] => []
  | child :: rest =>
    let first := build laid offset child
    first :: buildAll laid (first.stop + 1) rest

end

def toNode (laid : Bool) (outline : Outline) : Node :=
  (outline.build laid 0).node

def wrap (kind : String) : Nat → Outline → Outline
  | 0, outline => outline
  | n + 1, outline => .mk (.plain kind) [outline.wrap kind n]

end Outline

end SyntaxQuery.Tree
