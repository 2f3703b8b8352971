import SyntaxQuery.Proofs.Tree.Below

namespace SyntaxQuery.Tree

namespace Located

variable (parent : Label) (trail : List Crumb)

theorem parent_of_mem_childrenFrom (before nodes : List Node) (c : Located)
    (h : c ∈ childrenFrom parent trail before nodes) :
    c.parent = some ⟨.mk parent (before.reverseAux nodes), trail⟩ := by
  induction nodes generalizing before with
  | nil => cases h
  | cons node after ih =>
    rw [childrenFrom] at h
    obtain rfl | h := List.mem_cons.mp h
    · rfl
    · exact ih (node :: before) h

theorem parent_of_mem_children {n c : Located} (h : c ∈ n.children) : c.parent = some n := by
  obtain ⟨⟨label, nodes⟩, trail⟩ := n
  exact parent_of_mem_childrenFrom label trail [] nodes c h

theorem preceding_of_childrenFrom (before : List Node) {nodes : List Node}
    {front back : List Located} {k : Located}
    (h : childrenFrom parent trail before nodes = front ++ k :: back) :
    k.preceding = front.reverse ++ leftFrom parent trail nodes before := by
  induction nodes generalizing before front with
  | nil => simp [childrenFrom] at h
  | cons node after ih =>
    rw [childrenFrom] at h
    cases front with
    | nil =>
      obtain ⟨rfl, -⟩ := List.cons.inj h
      rfl
    | cons s front =>
      obtain ⟨rfl, ht⟩ := List.cons.inj h
      rw [ih (node :: before) ht, leftFrom, List.reverse_cons, List.append_assoc]
      rfl

theorem following_of_leftFrom (after : List Node) {nodes : List Node} {front back : List Located}
    {k : Located} (h : leftFrom parent trail after nodes = front ++ k :: back) :
    k.following = front.reverse ++ childrenFrom parent trail nodes after := by
  induction nodes generalizing after front with
  | nil => simp [leftFrom] at h
  | cons node before ih =>
    rw [leftFrom] at h
    cases front with
    | nil =>
      obtain ⟨rfl, -⟩ := List.cons.inj h
      rfl
    | cons s front =>
      obtain ⟨rfl, ht⟩ := List.cons.inj h
      rw [ih (node :: after) ht, childrenFrom, List.reverse_cons, List.append_assoc]
      rfl

theorem preceding_of_following {n k : Located} {front back : List Located}
    (h : n.following = front ++ k :: back) : k.preceding = front.reverse ++ n :: n.preceding := by
  obtain ⟨node, trail⟩ := n
  cases trail with
  | nil => simp [following] at h
  | cons crumb trail => exact preceding_of_childrenFrom crumb.parent trail (node :: crumb.before) h

theorem following_of_preceding {n k : Located} {front back : List Located}
    (h : n.preceding = front ++ k :: back) : k.following = front.reverse ++ n :: n.following := by
  obtain ⟨node, trail⟩ := n
  cases trail with
  | nil => simp [preceding] at h
  | cons crumb trail => exact following_of_leftFrom crumb.parent trail (node :: crumb.after) h

theorem previous_of_next {n k : Located} (h : n.next = some k) : k.previous = some n := by
  obtain ⟨back, hf⟩ := List.head?_eq_some_iff.mp h
  have hk : n.following = [] ++ k :: back := hf
  rw [previous, preceding_of_following hk]
  rfl

theorem next_of_previous {n k : Located} (h : n.previous = some k) : k.next = some n := by
  obtain ⟨back, hp⟩ := List.head?_eq_some_iff.mp h
  have hk : n.preceding = [] ++ k :: back := hp
  rw [next, following_of_preceding hk]
  rfl

theorem find?_back {p : Located → Bool} {items : List Located} {n k : Located} (hn : p n = true)
    (h : items.find? p = some k) :
    p k = true ∧ ∃ front back, items = front ++ k :: back ∧
      ∀ more, (front.reverse ++ n :: more).find? p = some n := by
  obtain ⟨hk, front, back, hi, hf⟩ := List.find?_eq_some_iff_append.mp h
  refine ⟨hk, front, back, hi, fun more => List.find?_eq_some_iff_append.mpr ?_⟩
  exact ⟨hn, front.reverse, more, rfl, fun a ha => hf a (List.mem_reverse.mp ha)⟩

theorem previousNamed_of_nextNamed {n k : Located} (h : n.nextNamed = some k) :
    k.previousNamed = some n := by
  rw [nextNamed] at h
  split at h
  · next hn =>
    obtain ⟨hk, front, back, hf, hb⟩ := find?_back hn h
    rw [previousNamed, if_pos hk, preceding_of_following hf, hb]
  · cases h

theorem nextNamed_of_previousNamed {n k : Located} (h : n.previousNamed = some k) :
    k.nextNamed = some n := by
  rw [previousNamed] at h
  split at h
  · next hn =>
    obtain ⟨hk, front, back, hp, hb⟩ := find?_back hn h
    rw [nextNamed, if_pos hk, following_of_preceding hp, hb]
  · cases h

def back (k : Located) : Link → Option Located
  | .parent => none
  | .nextSibling => k.previous
  | .previousSibling => k.next
  | .nextNamedSibling => k.previousNamed
  | .previousNamedSibling => k.nextNamed
  | .firstChild | .lastChild | .firstNamedChild | .lastNamedChild => k.parent

/-- Every link but the one to the parent can be taken back. -/
theorem back_of_along {n k : Located} {link : Link} (hl : link ≠ .parent)
    (h : n.along link = some k) : k.back link = some n := by
  cases link with
  | parent => exact (hl rfl).elim
  | nextSibling => exact previous_of_next h
  | previousSibling => exact next_of_previous h
  | nextNamedSibling => exact previousNamed_of_nextNamed h
  | previousNamedSibling => exact nextNamed_of_previousNamed h
  | firstChild | lastChild | firstNamedChild | lastNamedChild =>
    exact parent_of_mem_children (mem_children_of_along rfl h)

theorem parent_of_move {n k : Located} {move : Move} {i : Int} (h : n.move move i = some k) :
    k.parent = some n :=
  parent_of_mem_children (mem_children_of_move h)

end Located

end SyntaxQuery.Tree
