import SyntaxQuery.Scalar

namespace SyntaxQuery.Tree

/-- A place in a source text; rows and columns count from zero. -/
structure Point where
  row : Int
  column : Int
deriving DecidableEq, Inhabited

structure Label where
  kind : String
  named : Bool
  text : Option String
  grammarKind : Option Scalar
  kindId : Option Scalar
  grammarId : Option Scalar
  descendantCount : Option Scalar
  missing : Option Scalar
  extra : Option Scalar
  error : Option Scalar
  hasError : Option Scalar
  startByte : Option Scalar
  endByte : Option Scalar
  start : Point
  stop : Point
deriving DecidableEq, Inhabited

inductive Node where
  | mk (label : Label) (children : List Node)
deriving Inhabited

namespace Node

def label : Node → Label
  | mk label _ => label

def children : Node → List Node
  | mk _ children => children

mutual

def size : Node → Nat
  | mk _ children => sizes children + 1

def sizes : List Node → Nat
  | [] => 0
  | node :: rest => node.size + sizes rest

end

end Node

end SyntaxQuery.Tree
