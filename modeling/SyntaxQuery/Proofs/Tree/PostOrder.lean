import Mathlib.Data.List.Nodup
import SyntaxQuery.Tree.Traversal

namespace SyntaxQuery.Tree

variable {m : Type → Type} [Monad m] {β : Type}

namespace Located

/-- A node holds itself, and all that its children hold. -/
inductive Holds : Located → Located → Prop where
  | self (n : Located) : Holds n n
  | inChild {n c k : Located} (hc : c ∈ n.children) (hk : Holds c k) : Holds n k

theorem size_le_of_mem_childrenFrom (parent : Label) (trail : List Crumb)
    (before nodes : List Node) (c : Located) (hc : c ∈ childrenFrom parent trail before nodes) :
    c.node.size ≤ Node.sizes nodes := by
  induction nodes generalizing before with
  | nil => simp [childrenFrom] at hc
  | cons node after ih =>
    rw [childrenFrom] at hc
    rw [Node.sizes]
    obtain rfl | hc := List.mem_cons.mp hc
    · exact Nat.le_add_right _ _
    · exact Nat.le_add_left_of_le (ih (node :: before) hc)

theorem size_lt_of_mem_children {n c : Located} (hc : c ∈ n.children) :
    c.node.size < n.node.size := by
  obtain ⟨⟨parent, nodes⟩, trail⟩ := n
  exact Nat.lt_succ_of_le (size_le_of_mem_childrenFrom parent trail [] nodes c hc)

theorem trail_of_mem_childrenFrom (parent : Label) (trail : List Crumb)
    (before nodes : List Node) (c : Located) (hc : c ∈ childrenFrom parent trail before nodes) :
    ∃ crumb : Crumb, before.length ≤ crumb.before.length ∧ c.trail = crumb :: trail := by
  induction nodes generalizing before with
  | nil => simp [childrenFrom] at hc
  | cons node after ih =>
    rw [childrenFrom] at hc
    obtain rfl | hc := List.mem_cons.mp hc
    · exact ⟨_, Nat.le_refl _, rfl⟩
    · obtain ⟨crumb, hl, ht⟩ := ih (node :: before) hc
      exact ⟨crumb, Nat.le_of_succ_le hl, ht⟩

theorem length_of_mem_children {n c : Located} (hc : c ∈ n.children) :
    c.trail.length = n.trail.length + 1 := by
  obtain ⟨crumb, -, ht⟩ := trail_of_mem_childrenFrom _ _ _ _ _ hc
  rw [ht, List.length_cons]

theorem childrenFrom_pairwise (parent : Label) (trail : List Crumb) (before nodes : List Node) :
    (childrenFrom parent trail before nodes).Pairwise fun a b => a.trail ≠ b.trail := by
  induction nodes generalizing before with
  | nil => exact .nil
  | cons node after ih =>
    rw [childrenFrom]
    refine .cons (fun c hc he => ?_) (ih (node :: before))
    obtain ⟨crumb, hl, ht⟩ := trail_of_mem_childrenFrom _ _ _ _ _ hc
    rw [ht] at he
    have hb := congrArg Crumb.before (List.cons.inj he).1
    rw [← hb] at hl
    exact Nat.not_succ_le_self _ hl

@[elab_as_elim]
theorem childInduction {P : Located → Prop} (h : ∀ n, (∀ c, c ∈ n.children → P c) → P n)
    (n : Located) : P n :=
  h n fun c _ => childInduction h c
termination_by n.node.size
decreasing_by exact size_lt_of_mem_children ‹_›

end Located

theorem postOrderAll_eq (parent : Label) (trail : List Crumb) (before nodes : List Node) :
    postOrderAll parent trail before nodes =
      (Located.childrenFrom parent trail before nodes).flatMap Located.postOrder := by
  induction nodes generalizing before with
  | nil => simp [postOrderAll, Located.childrenFrom]
  | cons node after ih =>
    rw [postOrderAll, ih, Located.childrenFrom, List.flatMap_cons]
    rfl

namespace Located

theorem postOrder_eq (n : Located) : n.postOrder = n.children.flatMap postOrder ++ [n] := by
  obtain ⟨⟨parent, nodes⟩, trail⟩ := n
  rw [postOrder, postOrderFrom, postOrderAll_eq]
  rfl

theorem mem_postOrder {n k : Located} : k ∈ n.postOrder ↔ n.Holds k := by
  constructor
  · induction n using childInduction generalizing k with
    | h n ih =>
    intro hk
    rw [postOrder_eq] at hk
    obtain hk | hk := List.mem_append.mp hk
    · obtain ⟨c, hc, hk⟩ := List.mem_flatMap.mp hk
      exact .inChild hc (ih c hc hk)
    · obtain rfl := List.mem_singleton.mp hk
      exact .self k
  · intro h
    induction h with
    | self n => simp [postOrder_eq n]
    | inChild hc _ ih =>
      rw [postOrder_eq]
      exact List.mem_append_left _ (List.mem_flatMap.mpr ⟨_, hc, ih⟩)

theorem sublist_flatMap_postOrder (nodes : List Located) :
    nodes.Sublist (nodes.flatMap postOrder) := by
  induction nodes with
  | nil => exact .slnil
  | cons c nodes ih =>
    rw [List.flatMap_cons]
    exact (List.singleton_sublist.mpr (mem_postOrder.mpr (.self c))).append ih

theorem children_sublist (n : Located) : n.children.Sublist n.postOrder := by
  rw [postOrder_eq]
  exact (sublist_flatMap_postOrder n.children).trans (List.sublist_append_left _ _)

theorem trail_of_holds {n k : Located} (h : n.Holds k) : ∃ pre, k.trail = pre ++ n.trail := by
  induction h with
  | self n => exact ⟨[], rfl⟩
  | inChild hc _ ih =>
    obtain ⟨pre, hk⟩ := ih
    obtain ⟨crumb, -, hc⟩ := trail_of_mem_childrenFrom _ _ _ _ _ hc
    exact ⟨pre ++ [crumb], by simp [hk, hc]⟩

theorem children_trails (n : Located) : n.children.Pairwise fun a b => a.trail ≠ b.trail :=
  childrenFrom_pairwise n.label n.trail [] n.node.children

theorem disjoint_postOrder {a b : Located} (hl : a.trail.length = b.trail.length)
    (hne : a.trail ≠ b.trail) : a.postOrder.Disjoint b.postOrder := by
  intro k ha hb
  obtain ⟨pre, hk⟩ := trail_of_holds (mem_postOrder.mp ha)
  obtain ⟨pre', hk'⟩ := trail_of_holds (mem_postOrder.mp hb)
  exact hne (List.append_inj_right' (hk.symm.trans hk') hl)

/-- No node stands twice in the post-order: its place tells it from all others. -/
theorem nodup_postOrder (n : Located) : n.postOrder.Nodup := by
  induction n using childInduction with
  | h n ih =>
  rw [postOrder_eq]
  refine List.nodup_append'.mpr ⟨List.nodup_flatMap.mpr ⟨ih, ?_⟩, List.nodup_singleton n, ?_⟩
  · refine n.children_trails.imp_of_mem fun {a b} ha hb hne => ?_
    refine disjoint_postOrder ?_ hne
    rw [length_of_mem_children ha, length_of_mem_children hb]
  · intro k hk hn
    obtain rfl := List.mem_singleton.mp hn
    obtain ⟨c, hc, hk⟩ := List.mem_flatMap.mp hk
    obtain ⟨pre, hp⟩ := trail_of_holds (mem_postOrder.mp hk)
    have hl := congrArg List.length hp
    rw [List.length_append, length_of_mem_children hc] at hl
    omega

end Located

def Visit.nodes : Visit → List Located
  | enter n => n.postOrder
  | leave n => [n]

theorem gatherFrom_eq (f : Located → m (List β)) (stack : List Visit) :
    gatherFrom f stack = joinEach f (stack.flatMap Visit.nodes) := by
  induction stack using gatherFrom.induct with
  | case1 => simp [gatherFrom, joinEach]
  | case2 n stack ih =>
    rw [gatherFrom, ih]
    rfl
  | case3 n stack ih =>
    rw [gatherFrom, ih]
    simp [Visit.nodes, n.postOrder_eq, List.flatMap_map]

/-- The loop over the stack visits the nodes of a subtree in post-order, each once. -/
theorem gather_eq (f : Located → m (List β)) (n : Located) :
    gather f n = joinEach f n.postOrder := by
  rw [gather, gatherFrom_eq]
  simp [Visit.nodes]

end SyntaxQuery.Tree
