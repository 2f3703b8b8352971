import SyntaxQuery.Proofs.Query.Search

namespace SyntaxQuery.Query

open SyntaxQuery.Journal SyntaxQuery.Selector SyntaxQuery.Tree

def takesValue : Token → Bool
  | .pseudoElement _ => true
  | _ => false

/-- The nodes at which ways along tokens end, in the order in which a walk comes to them. -/
def ends : List Token → Located → List Located
  | [], n => [n]
  | t :: rest, n => (targets n t).flatMap (ends rest)

theorem value_walk_cons {t : Token} (h : takesValue t = false) (verbose : Bool) (total : Nat)
    (rest : List Token) (n : Located) :
    (walk verbose total (t :: rest) n).value =
      (targets n t).flatMap fun k => (walk verbose total rest k).value := by
  rw [walk, Logged.value_bind, value_step]
  rintro name rfl
  cases h

/-- A walk is cut anywhere before a value is taken: its second part starts at the ends of the first
one. -/
theorem value_walk_append {first : List Token} (h : ∀ t ∈ first, takesValue t = false)
    (verbose : Bool) (total : Nat) (rest : List Token) (n : Located) :
    (walk verbose total (first ++ rest) n).value =
      (ends first n).flatMap fun k => (walk verbose total rest k).value := by
  induction first generalizing n with
  | nil => exact (List.flatMap_singleton _ _).symm
  | cons t first ih =>
    obtain ⟨ht, hf⟩ := List.forall_mem_cons.mp h
    rw [List.cons_append, value_walk_cons ht, ends, List.flatMap_assoc]
    congr 1
    funext k
    exact ih hf k

theorem value_walk_ends {first : List Token} (h : ∀ t ∈ first, takesValue t = false)
    (verbose : Bool) (total : Nat) (n : Located) :
    (walk verbose total first n).value = (ends first n).map .node := by
  have hw := value_walk_append h verbose total [] n
  rw [List.append_nil] at hw
  rw [hw, List.map_eq_flatMap]
  rfl

theorem value_execute_ends {rest : List Token} (h : ∀ t ∈ rest, takesValue t = false)
    (verbose : Bool) (root : Located) (kind : String) :
    (execute verbose (.node root) (.className kind :: rest)).value =
      .ok (((root.postOrder.filter fun n => n.kind = kind).flatMap (ends rest)).map .node) := by
  rw [value_execute, List.map_flatMap]
  congr 1
  exact List.flatMap_congr fun n _ => value_walk_ends h verbose _ n

theorem map_node_injective : Function.Injective (List.map Match.node) :=
  List.map_injective_iff.mpr fun _ _ h => Match.node.inj h

theorem value_walk_congr (verbose verbose' : Bool) (total total' : Nat) (rest : List Token)
    (n : Located) : (walk verbose total rest n).value = (walk verbose' total' rest n).value := by
  rw [value_walk, value_walk]

/-- Selectors compose: what a selector finds is what the walks along its second part find, one after
the other from the nodes that its first part finds. -/
theorem execute_append {kind : String} {first : List Token}
    (h : ∀ t ∈ first, takesValue t = false) (rest : List Token) (subject : Subject)
    (verbose verbose' verbose'' : Bool) :
    ∃ found : Except Failure (List Located),
      (execute verbose subject (.className kind :: first)).value =
        found.map (List.map Match.node) ∧
      (execute verbose' subject (.className kind :: first ++ rest)).value =
        found.map (List.flatMap fun n => (walkFrom verbose'' rest 0 n).value) := by
  cases subject with
  | rootless typeName => exact ⟨.error (.refused (.noRoot typeName)), rfl, rfl⟩
  | node root =>
    let starts := root.postOrder.filter fun n => n.kind = kind
    refine ⟨.ok (starts.flatMap (ends first)), value_execute_ends h verbose root kind, ?_⟩
    · have hs := value_seek_eq verbose' (render (.className kind :: first ++ rest)) kind
        (first ++ rest) root
      simp only [value_walk_append h] at hs
      rw [Except.map, List.flatMap_assoc]
      simp only [walkFrom, tokensFrom, value_walk_congr verbose'' verbose' rest.length
        ((first ++ rest).length + 1), List.drop_zero]
      rw [← hs]
      rfl

def nestedBlocks : Node :=
  let node (kind : String) (children : List Node) : Node :=
    .mk { (default : Label) with kind, named := true } children
  node "block" [node "name" [], node "block" [node "name" []]]

theorem execute_append_nestedBlocks :
    (∀ t ∈ [Token.combinator descendant, .className "block"], takesValue t = false) ∧
      ∃ found more : List Located,
        found.map Located.rank = [2, 2, 0] ∧ more.map Located.rank = [3, 3, 1] ∧
        (execute false (.node (.root nestedBlocks))
          [.className "block", .combinator descendant, .className "block"]).value =
          .ok (found.map Match.node) ∧
        (execute false (.node (.root nestedBlocks))
          [.className "block", .combinator descendant, .className "block", .combinator child,
            .className "name"]).value = .ok (more.map Match.node) := by
  have h : ∀ t ∈ [Token.combinator descendant, .className "block"], takesValue t = false := by
    decide
  obtain ⟨found, hf, hm⟩ := @execute_append "block" _ h [.combinator child, .className "name"]
    (.node (.root nestedBlocks)) false false false
  have he := value_execute_ends h false (.root nestedBlocks) "block"
  cases found with
  | error e => exact nomatch he.symm.trans hf
  | ok found =>
    obtain rfl := map_node_injective (Except.ok.inj (he.symm.trans hf))
    have hn : ∀ n, (walkFrom false [.combinator child, .className "name"] 0 n).value =
        (ends [.combinator child, .className "name"] n).map Match.node :=
      value_walk_ends (by decide) false 2
    simp only [Except.map, hn, ← List.map_flatMap] at hm
    exact ⟨h, _, _, rfl, rfl, he, hm⟩

end SyntaxQuery.Query
