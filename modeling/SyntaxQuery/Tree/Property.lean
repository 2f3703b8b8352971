import SyntaxQuery.Scalar
import SyntaxQuery.Tree.Located

namespace SyntaxQuery.Tree

inductive Property where
  | type
  | grammarType
  | text
  | typeId
  | grammarId
  | startIndex
  | endIndex
  | childCount
  | namedChildCount
  | descendantCount
  | isNamed
  | isMissing
  | isExtra
  | isError
  | hasError
deriving DecidableEq

inductive Link where
  | parent
  | nextSibling
  | previousSibling
  | nextNamedSibling
  | previousNamedSibling
  | firstChild
  | lastChild
  | firstNamedChild
  | lastNamedChild
deriving DecidableEq

inductive Move where
  | child
  | namedChild
  | childForIndex
  | namedChildForIndex
deriving DecidableEq

/-- Each property has one name, and most a second one in lower case. -/
def Property.ofName? : String → Option Property
  | "type" => some type
  | "grammarType" | "grammar_name" => some grammarType
  | "text" => some text
  | "typeId" | "kind_id" => some typeId
  | "grammarId" | "grammar_id" => some grammarId
  | "startIndex" | "start_byte" => some startIndex
  | "endIndex" | "end_byte" => some endIndex
  | "childCount" | "child_count" => some childCount
  | "namedChildCount" | "named_child_count" => some namedChildCount
  | "descendantCount" | "descendant_count" => some descendantCount
  | "isNamed" | "is_named" => some isNamed
  | "isMissing" | "is_missing" => some isMissing
  | "isExtra" | "is_extra" => some isExtra
  | "isError" | "is_error" => some isError
  | "hasError" | "has_error" => some hasError
  | _ => none

def Link.ofName? : String → Option Link
  | "parent" => some parent
  | "nextSibling" | "next_sibling" => some nextSibling
  | "previousSibling" | "prev_sibling" => some previousSibling
  | "nextNamedSibling" | "next_named_sibling" => some nextNamedSibling
  | "previousNamedSibling" | "prev_named_sibling" => some previousNamedSibling
  | "firstChild" | "first_child" => some firstChild
  | "lastChild" | "last_child" => some lastChild
  | "firstNamedChild" | "first_named_child" => some firstNamedChild
  | "lastNamedChild" | "last_named_child" => some lastNamedChild
  | _ => none

def Move.ofName? : String → Option Move
  | "child" => some child
  | "namedChild" | "named_child" => some namedChild
  | "firstChildForIndex" | "first_child_for_index" => some childForIndex
  | "firstNamedChildForIndex" | "first_named_child_for_index" => some namedChildForIndex
  | _ => none

structure Unknown where
  what : String
  name : String
deriving DecidableEq

def Unknown.message (e : Unknown) : String :=
  "Unknown " ++ e.what ++ ": " ++ Text.quoted e.name

namespace Located

def value (n : Located) : Property → Option Scalar
  | .type => some (.text n.kind)
  | .grammarType => n.label.grammarKind
  | .text => n.label.text.map .text
  | .typeId => n.label.kindId
  | .grammarId => n.label.grammarId
  | .startIndex => n.label.startByte
  | .endIndex => n.label.endByte
  | .childCount => some (.integer n.children.length)
  | .namedChildCount => some (.integer n.namedChildren.length)
  | .descendantCount => n.label.descendantCount
  | .isNamed => some (.truth n.label.named)
  | .isMissing => n.label.missing
  | .isExtra => n.label.extra
  | .isError => n.label.error
  | .hasError => n.label.hasError

def along (n : Located) : Link → Option Located
  | .parent => n.parent
  | .nextSibling => n.next
  | .previousSibling => n.previous
  | .nextNamedSibling => n.nextNamed
  | .previousNamedSibling => n.previousNamed
  | .firstChild => n.child 0
  | .lastChild => n.child (n.children.length - 1)
  | .firstNamedChild => n.namedChild 0
  | .lastNamedChild => n.namedChild (n.namedChildren.length - 1)

def move (n : Located) : Move → Int → Option Located
  | .child => n.child
  | .namedChild => n.namedChild
  | .childForIndex => n.childAtByte
  | .namedChildForIndex => n.namedChildAtByte

def property (n : Located) (name : String) : Except Unknown (Option Scalar) :=
  match Property.ofName? name with
  | some p => .ok (n.value p)
  | none => .error ⟨"property", name⟩

def linked (n : Located) (name : String) : Except Unknown (Option Located) :=
  match Link.ofName? name with
  | some link => .ok (n.along link)
  | none => .error ⟨"navigation property", name⟩

def moved (n : Located) (name : String) (index : Int) : Except Unknown (Option Located) :=
  match Move.ofName? name with
  | some move => .ok (n.move move index)
  | none => .error ⟨"pseudo-class", name⟩

end Located

end SyntaxQuery.Tree
