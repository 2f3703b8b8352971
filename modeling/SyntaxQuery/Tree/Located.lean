import SyntaxQuery.Tree.Node

namespace SyntaxQuery.Tree

/-- What surrounds a node one level up: its parent's label, and the siblings before it, nearest
first, and after it. -/
structure Crumb where
  before : List Node
  parent : Label
  after : List Node

/-- A node in its place: the tree below it, and what surrounds it on each level above. -/
structure Located where
  node : Node
  trail : List Crumb
deriving Inhabited

namespace Located

def root (node : Node) : Located :=
  ⟨node, []⟩

def label (n : Located) : Label :=
  n.node.label

def kind (n : Located) : String :=
  n.label.kind

def childrenFrom (parent : Label) (trail : List Crumb) (before : List Node) :
    List Node → List Located
  | [] => []
  | node :: after =>
    ⟨node, ⟨before, parent, after⟩ :: trail⟩ :: childrenFrom parent trail (node :: before) after

def children (n : Located) : List Located :=
  childrenFrom n.label n.trail [] n.node.children

def namedChildren (n : Located) : List Located :=
  n.children.filter (·.label.named)

def itemAt (items : List Located) : Int → Option Located
  | .ofNat i => items[i]?
  | .negSucc _ => none

def child (n : Located) (i : Int) : Option Located :=
  itemAt n.children i

def namedChild (n : Located) (i : Int) : Option Located :=
  itemAt n.namedChildren i

def endsBehind (byte : Nat) (n : Located) : Bool :=
  match n.label.endByte with
  | some (.integer stop) => byte < stop
  | _ => false

def itemBehind (items : List Located) : Int → Option Located
  | .ofNat byte => items.find? (endsBehind byte)
  | .negSucc _ => none

def childAtByte (n : Located) (byte : Int) : Option Located :=
  itemBehind n.children byte

def namedChildAtByte (n : Located) (byte : Int) : Option Located :=
  itemBehind n.namedChildren byte

def parent (n : Located) : Option Located :=
  match n.trail with
  | [] => none
  | crumb :: trail =>
    some ⟨.mk crumb.parent (crumb.before.reverseAux (n.node :: crumb.after)), trail⟩

def leftFrom (parent : Label) (trail : List Crumb) (after : List Node) : List Node → List Located
  | [] => []
  | node :: before =>
    ⟨node, ⟨before, parent, after⟩ :: trail⟩ :: leftFrom parent trail (node :: after) before

def following (n : Located) : List Located :=
  match n.trail with
  | [] => []
  | crumb :: trail => childrenFrom crumb.parent trail (n.node :: crumb.before) crumb.after

def preceding (n : Located) : List Located :=
  match n.trail with
  | [] => []
  | crumb :: trail => leftFrom crumb.parent trail (n.node :: crumb.after) crumb.before

def next (n : Located) : Option Located :=
  n.following.head?

def previous (n : Located) : Option Located :=
  n.preceding.head?

/-- The nearest named sibling after a named node. A node without a name has no such link here, as in
the trees that are made by hand; a parser's nodes have it, named or not. -/
def nextNamed (n : Located) : Option Located :=
  if n.label.named then n.following.find? (·.label.named) else none

/-- The nearest named sibling before a named node; see `nextNamed`. -/
def previousNamed (n : Located) : Option Located :=
  if n.label.named then n.preceding.find? (·.label.named) else none

/-- The number of nodes that stand before a node in document order, above it and to its left. -/
def rank (n : Located) : Nat :=
  go n.trail
where
  go : List Crumb → Nat
    | [] => 0
    | crumb :: trail => Node.sizes crumb.before + 1 + go trail

end Located

end SyntaxQuery.Tree
