import SyntaxQuery.Proofs.Query.Composition
import SyntaxQuery.Proofs.Tree.Below

namespace SyntaxQuery.Query

open SyntaxQuery.Journal SyntaxQuery.Number SyntaxQuery.Selector SyntaxQuery.Tree

/-- Tokens that stay at a node or lead to what it holds, by a combinator, a link to a child or an
index, and those that take a value. -/
def isDownward : Token → Bool
  | .className _ | .property .. | .pseudoElement _ => true
  | .id name => (Link.ofName? name).any Link.isDownward
  | .combinator content => content = descendant || content = child
  | .pseudoClass name _ => (Move.ofName? name).isSome
  | .foreign .. => false

/-- A result in a tree of its own, in the place that it has when the tree hangs below a trail. -/
def Match.below (trail : List Crumb) : Match → Match
  | node n => node (n.below trail)
  | value v => value v

theorem holds_of_mem_targets {t : Token} (ht : isDownward t = true) {n k : Located}
    (h : k ∈ targets n t) : n.Holds k := by
  cases leads_of_mem_targets h with
  | className _ | property _ _ => exact .self _
  | id hl hk =>
    rw [isDownward, hl] at ht
    exact Located.holds_of_mem_children (Located.mem_children_of_along ht hk)
  | descendant hk => exact hk
  | child hk => exact Located.holds_of_mem_children hk
  | next _ | previous _ => cases ht
  | pseudoClass _ _ hk => exact Located.holds_of_mem_children (Located.mem_children_of_move hk)

variable (trail : List Crumb)

theorem targets_below {t : Token} (ht : isDownward t = true) (n : Located) :
    targets (n.below trail) t = (targets n t).map (Located.below trail) := by
  cases t with
  | className name =>
    change (if n.kind = name then [n.below trail] else []) = _
    rw [targets]
    split <;> rfl
  | id name =>
    rw [isDownward, Option.any_eq_true] at ht
    obtain ⟨link, hl, hd⟩ := ht
    simp only [targets, hl, Option.bind_some, Located.along_below trail n hd, Option.toList_map]
  | property name operator value flag =>
    simp only [targets, Located.value_below, List.map_map]
    rfl
  | combinator content =>
    rw [isDownward, Bool.or_eq_true, decide_eq_true_iff, decide_eq_true_iff] at ht
    obtain rfl | rfl := ht
    · exact Located.postOrder_below trail n
    · exact Located.children_below trail n
  | pseudoClass name argument =>
    obtain ⟨move, hm⟩ := Option.isSome_iff_exists.mp ht
    simp only [targets, hm, Option.bind_some]
    cases indexOf? argument with
    | none => rfl
    | some i => simp only [Option.bind_some, Located.move_below, Option.toList_map]
  | pseudoElement name => rfl
  | foreign serial text kind => cases ht

theorem value_walk_pseudoElement (verbose : Bool) (total : Nat) (name : String)
    (rest : List Token) (n : Located) :
    (walk verbose total (.pseudoElement name :: rest) n).value =
      if rest.isEmpty then ((Property.ofName? name).bind n.value).toList.map .value else [] := by
  rw [walk, Logged.value_bind, step, value_extract]
  cases rest <;> rfl

/-- A walk along downward tokens finds the same in a tree of its own. -/
theorem value_walk_below {rest : List Token} (h : ∀ t ∈ rest, isDownward t = true) (verbose : Bool)
    (total : Nat) (n : Located) :
    (walk verbose total rest (n.below trail)).value =
      (walk verbose total rest n).value.map (Match.below trail) := by
  induction rest generalizing n with
  | nil => rfl
  | cons t rest ih =>
    obtain ⟨ht, hr⟩ := List.forall_mem_cons.mp h
    cases hv : takesValue t with
    | false =>
      rw [value_walk_cons hv, value_walk_cons hv, targets_below trail ht, List.flatMap_map,
        List.map_flatMap]
      exact List.flatMap_congr fun k _ => ih hr k
    | true =>
      cases t with
      | pseudoElement name =>
        rw [value_walk_pseudoElement, value_walk_pseudoElement]
        cases Property.ofName? name with
        | none => cases rest <;> rfl
        | some p =>
          rw [Option.bind_some, Option.bind_some, Located.value_below]
          cases rest <;> cases n.value p <;> rfl
      | _ => cases hv

theorem holds_of_mem_walk {rest : List Token} (h : ∀ t ∈ rest, isDownward t = true)
    {verbose : Bool} {total : Nat} {n k : Located}
    (hk : .node k ∈ (walk verbose total rest n).value) : n.Holds k := by
  induction rest generalizing n with
  | nil =>
    obtain rfl := Match.node.inj (List.mem_singleton.mp hk)
    exact .self k
  | cons t rest ih =>
    obtain ⟨ht, hr⟩ := List.forall_mem_cons.mp h
    cases hv : takesValue t with
    | false =>
      rw [value_walk_cons hv] at hk
      obtain ⟨c, hc, hk⟩ := List.mem_flatMap.mp hk
      exact (holds_of_mem_targets ht hc).trans (ih hr hk)
    | true =>
      cases t with
      | pseudoElement name =>
        rw [value_walk_pseudoElement] at hk
        split at hk
        · obtain ⟨v, -, hv⟩ := List.mem_map.mp hk
          cases hv
        · cases hk
      | _ => cases hv

/-- Downward selectors see nothing outside of the subtree that they are run on: a copy of the
subtree, detached from its tree, gives the same values and the nodes at the same places, in the same
order, and all nodes lie in the subtree. -/
theorem execute_detached {rest : List Token} (h : ∀ t ∈ rest, isDownward t = true) (verbose : Bool)
    (n : Located) (kind : String) :
    ∃ found,
      (execute verbose (.node (.root n.node)) (.className kind :: rest)).value = .ok found ∧
      (execute verbose (.node n) (.className kind :: rest)).value =
        .ok (found.map (Match.below n.trail)) ∧
      ∀ k, .node k ∈ found.map (Match.below n.trail) → n.Holds k := by
  let selector := render (.className kind :: rest)
  have hs : (seek verbose selector kind rest n).value =
      (seek verbose selector kind rest (.root n.node)).value.map (Match.below n.trail) := by
    have hp := Located.postOrder_below n.trail (.root n.node)
    rw [Located.below_root] at hp
    rw [value_seek_eq, value_seek_eq, hp, List.filter_map, List.flatMap_map, List.map_flatMap]
    exact List.flatMap_congr fun k _ => value_walk_below n.trail h verbose _ k
  refine ⟨_, rfl, congrArg Except.ok hs, fun k hk => ?_⟩
  have hk : .node k ∈ (seek verbose selector kind rest n).value := by
    rw [hs]
    exact hk
  rw [value_seek_eq] at hk
  obtain ⟨c, hc, hk⟩ := List.mem_flatMap.mp hk
  exact (Located.mem_postOrder.mp (List.mem_filter.mp hc).1).trans (holds_of_mem_walk h hk)

def middleBlock : Located :=
  let label : Label := { (default : Label) with kind := "block", named := true }
  ⟨.mk label [.mk label [nestedBlocks]], [⟨[nestedBlocks], label, [nestedBlocks]⟩]⟩

def downwardTokens : List Token :=
  [.combinator descendant, .className "block", .property "childCount" none none none,
    .combinator child, .pseudoClass "namedChild" (some (.text "0")), .id "first_child"]

theorem middleBlock_detached :
    (∀ t ∈ downwardTokens, isDownward t = true) ∧
      ∃ found : List Located,
        found.map Located.rank = [3] ∧
        (found.map (Located.below middleBlock.trail)).map Located.rank = [8] ∧
        (execute false (.node (.root middleBlock.node)) (.className "block" :: downwardTokens)).value =
          .ok (found.map Match.node) ∧
        (execute false (.node middleBlock) (.className "block" :: downwardTokens)).value =
          .ok ((found.map Match.node).map (Match.below middleBlock.trail)) := by
  have h : ∀ t ∈ downwardTokens, isDownward t = true := by decide
  obtain ⟨found, hd, hn, -⟩ := execute_detached h false middleBlock "block"
  have hv : ∀ t ∈ downwardTokens, takesValue t = false := by decide
  have he := value_execute_ends hv false (.root middleBlock.node) "block"
  obtain rfl := Except.ok.inj (he.symm.trans hd)
  exact ⟨h, _, rfl, rfl, hd, hn⟩

end SyntaxQuery.Query
