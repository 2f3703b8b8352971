import SyntaxQuery.Proofs.Tree.PostOrder
import SyntaxQuery.Tree.Property

namespace SyntaxQuery.Tree

def Link.isDownward : Link → Bool
  | firstChild | lastChild | firstNamedChild | lastNamedChild => true
  | _ => false

namespace Located

def below (trail : List Crumb) (n : Located) : Located :=
  ⟨n.node, n.trail ++ trail⟩

theorem below_root (n : Located) : (root n.node).below n.trail = n := rfl

variable (trail : List Crumb)

theorem childrenFrom_below (parent : Label) (above : List Crumb) (before nodes : List Node) :
    childrenFrom parent (above ++ trail) before nodes =
      (childrenFrom parent above before nodes).map (below trail) := by
  induction nodes generalizing before with
  | nil => rfl
  | cons node after ih =>
    rw [childrenFrom, childrenFrom, List.map_cons, ih]
    rfl

theorem children_below (n : Located) : (n.below trail).children = n.children.map (below trail) :=
  childrenFrom_below trail n.label n.trail [] n.node.children

theorem namedChildren_below (n : Located) :
    (n.below trail).namedChildren = n.namedChildren.map (below trail) := by
  rw [namedChildren, children_below, List.filter_map]
  rfl

theorem itemAt_below (items : List Located) (i : Int) :
    itemAt (items.map (below trail)) i = (itemAt items i).map (below trail) := by
  cases i with
  | ofNat i => exact List.getElem?_map
  | negSucc i => rfl

theorem itemBehind_below (items : List Located) (byte : Int) :
    itemBehind (items.map (below trail)) byte = (itemBehind items byte).map (below trail) := by
  cases byte with
  | ofNat byte => exact List.find?_map
  | negSucc byte => rfl

theorem child_below (n : Located) (i : Int) :
    (n.below trail).child i = (n.child i).map (below trail) := by
  rw [child, child, children_below, itemAt_below]

theorem namedChild_below (n : Located) (i : Int) :
    (n.below trail).namedChild i = (n.namedChild i).map (below trail) := by
  rw [namedChild, namedChild, namedChildren_below, itemAt_below]

theorem postOrder_below (n : Located) :
    (n.below trail).postOrder = n.postOrder.map (below trail) := by
  induction n using childInduction with
  | h n ih =>
  rw [postOrder_eq, postOrder_eq, children_below, List.flatMap_map, List.map_append,
    List.map_flatMap, List.flatMap_congr ih]
  rfl

theorem value_below (n : Located) (p : Property) : (n.below trail).value p = n.value p := by
  cases p with
  | childCount => simp only [value, children_below, List.length_map]
  | namedChildCount => simp only [value, namedChildren_below, List.length_map]
  | _ => rfl

theorem along_below (n : Located) {link : Link} (h : link.isDownward = true) :
    (n.below trail).along link = (n.along link).map (below trail) := by
  cases link with
  | firstChild => exact child_below trail n 0
  | lastChild => rw [along, along, child_below, children_below, List.length_map]
  | firstNamedChild => exact namedChild_below trail n 0
  | lastNamedChild => rw [along, along, namedChild_below, namedChildren_below, List.length_map]
  | _ => cases h

theorem move_below (n : Located) (move : Move) (i : Int) :
    (n.below trail).move move i = (n.move move i).map (below trail) := by
  cases move with
  | child => exact child_below trail n i
  | namedChild => exact namedChild_below trail n i
  | childForIndex =>
    rw [Located.move, Located.move, childAtByte, childAtByte, children_below, itemBehind_below]
  | namedChildForIndex =>
    rw [Located.move, Located.move, namedChildAtByte, namedChildAtByte, namedChildren_below,
      itemBehind_below]

theorem Holds.trans {n c k : Located} (hc : n.Holds c) (hk : c.Holds k) : n.Holds k := by
  induction hc with
  | self n => exact hk
  | inChild hc _ ih => exact .inChild hc (ih hk)

theorem holds_of_mem_children {n k : Located} (h : k ∈ n.children) : n.Holds k :=
  .inChild h (.self k)

theorem mem_children_of_mem_namedChildren {n k : Located} (h : k ∈ n.namedChildren) :
    k ∈ n.children :=
  (List.mem_filter.mp h).1

theorem mem_of_itemAt {items : List Located} {i : Int} {k : Located} (h : itemAt items i = some k) :
    k ∈ items := by
  cases i with
  | ofNat i => exact List.mem_of_getElem? h
  | negSucc i => cases h

theorem mem_of_itemBehind {items : List Located} {byte : Int} {k : Located}
    (h : itemBehind items byte = some k) : k ∈ items := by
  cases byte with
  | ofNat byte => exact List.mem_of_find?_eq_some h
  | negSucc byte => cases h

theorem mem_children_of_along {n k : Located} {link : Link} (hl : link.isDownward = true)
    (h : n.along link = some k) : k ∈ n.children := by
  cases link with
  | firstChild => exact mem_of_itemAt (i := 0) h
  | lastChild => exact mem_of_itemAt h
  | firstNamedChild => exact mem_children_of_mem_namedChildren (mem_of_itemAt (i := 0) h)
  | lastNamedChild => exact mem_children_of_mem_namedChildren (mem_of_itemAt h)
  | _ => cases hl

theorem mem_children_of_move {n k : Located} {move : Move} {i : Int} (h : n.move move i = some k) :
    k ∈ n.children := by
  cases move with
  | child => exact mem_of_itemAt h
  | namedChild => exact mem_children_of_mem_namedChildren (mem_of_itemAt h)
  | childForIndex => exact mem_of_itemBehind h
  | namedChildForIndex => exact mem_children_of_mem_namedChildren (mem_of_itemBehind h)

end Located

end SyntaxQuery.Tree
