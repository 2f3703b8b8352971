import SyntaxQuery.Proofs.Query.Composition

namespace SyntaxQuery.Query

open SyntaxQuery.Journal SyntaxQuery.Selector SyntaxQuery.Tree

theorem flatMap_targets_className {α : Type} (kind : String) (f : Located → List α)
    (nodes : List Located) :
    (nodes.flatMap fun n => (targets n (.className kind)).flatMap f) =
      (nodes.filter fun n => n.kind = kind).flatMap f := by
  induction nodes with
  | nil => rfl
  | cons n nodes ih =>
    rw [List.flatMap_cons, ih, targets, List.filter_cons]
    by_cases h : n.kind = kind
    · rw [if_pos h, if_pos (decide_eq_true h), List.flatMap_singleton, List.flatMap_cons]
    · rw [if_neg h, if_neg (by simpa using h)]
      rfl

/-- A descendant combinator in front of a class tries the nodes that a query would start at. -/
theorem value_walk_descendant (verbose : Bool) (total : Nat) (kind : String) (rest : List Token)
    (n : Located) :
    (walk verbose total (.combinator descendant :: .className kind :: rest) n).value =
      (n.postOrder.filter fun k => k.kind = kind).flatMap fun k =>
        (walk verbose total rest k).value := by
  have hc : ∀ k, (walk verbose total (.className kind :: rest) k).value =
      (targets k (.className kind)).flatMap fun k => (walk verbose total rest k).value :=
    value_walk_cons rfl verbose total rest
  rw [value_walk_cons rfl]
  simp only [hc]
  exact flatMap_targets_className kind _ n.postOrder

theorem filter_postOrder_of_unique {n : Located} (h : ∀ k, n.Holds k → k.kind = n.kind → k = n) :
    (n.postOrder.filter fun k => k.kind = n.kind) = [n] := by
  have hn := n.nodup_postOrder
  rw [n.postOrder_eq] at hn ⊢
  have hd := (List.nodup_append'.mp hn).2.2
  have hb : (n.children.flatMap Located.postOrder).filter (fun k => k.kind = n.kind) = [] := by
    refine List.filter_eq_nil_iff.mpr fun k hk he => ?_
    have hh : n.Holds k := by
      rw [← Located.mem_postOrder, n.postOrder_eq]
      exact List.mem_append_left [n] hk
    obtain rfl := h k hh (of_decide_eq_true he)
    exact hd hk (List.mem_singleton_self k)
  rw [List.filter_append, hb, List.nil_append, List.filter_singleton]
  simp

/-- The walk of a descendant combinator and the query from its node find the same: both try the nodes
of the leading class in post-order. So a class that is the root's alone, and a descendant combinator
behind it, can be put before any selector. -/
theorem walk_descendant_eq_execute (n : Located) (kind : String) (rest : List Token)
    (verbose verbose' : Bool) :
    ∃ found,
      (execute verbose (.node n) (.className kind :: rest)).value = .ok found ∧
      (walkFrom verbose' (.combinator descendant :: .className kind :: rest) 0 n).value = found ∧
      ((∀ k, n.Holds k → k.kind = n.kind → k = n) →
        (execute verbose' (.node n)
          (.className n.kind :: .combinator descendant :: .className kind :: rest)).value =
          .ok found) := by
  let found := (n.postOrder.filter fun k => k.kind = kind).flatMap fun k =>
    (walk verbose (rest.length + 1) rest k).value
  have hw : ∀ total,
      (walk verbose' total (.combinator descendant :: .className kind :: rest) n).value = found := by
    intro total
    rw [value_walk_descendant]
    exact List.flatMap_congr fun k _ => value_walk_congr verbose' verbose total _ rest k
  refine ⟨found, value_execute verbose n kind rest, hw _, fun h => ?_⟩
  rw [value_execute, filter_postOrder_of_unique h, List.flatMap_singleton, hw]

def blockProgram : Located :=
  .root (.mk { (default : Label) with kind := "program" } [nestedBlocks, nestedBlocks])

theorem walk_descendant_eq_execute_blockProgram :
    (∀ k, blockProgram.Holds k → k.kind = "program" → k = blockProgram) ∧
      ∃ found : List Located, found.map Located.rank = [6, 8] ∧
        (execute true (.node blockProgram)
          [.className "block", .combinator nextSibling, .combinator descendant,
            .className "name"]).value = .ok (found.map Match.node) ∧
        (walkFrom false
          [.combinator descendant, .className "block", .combinator nextSibling,
            .combinator descendant, .className "name"] 0 blockProgram).value =
          found.map Match.node ∧
        (execute false (.node blockProgram)
          [.className "program", .combinator descendant, .className "block",
            .combinator nextSibling, .combinator descendant, .className "name"]).value =
          .ok (found.map Match.node) := by
  have hs : (blockProgram.postOrder.filter fun k => k.kind = "program") = [blockProgram] := rfl
  have h : ∀ k, blockProgram.Holds k → k.kind = "program" → k = blockProgram := by
    intro k hk he
    have hm : k ∈ blockProgram.postOrder.filter fun k => k.kind = "program" :=
      List.mem_filter.mpr ⟨Located.mem_postOrder.mpr hk, decide_eq_true he⟩
    rw [hs] at hm
    exact List.mem_singleton.mp hm
  obtain ⟨found, he, hw, hp⟩ := walk_descendant_eq_execute blockProgram "block"
    [.combinator nextSibling, .combinator descendant, .className "name"] true false
  rw [value_execute_ends (by decide)] at he
  obtain rfl := Except.ok.inj he
  exact ⟨h, _, rfl, value_execute_ends (by decide) true blockProgram "block", hw, hp h⟩

end SyntaxQuery.Query
