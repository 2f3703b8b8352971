import SyntaxQuery.Proofs.Query.Composition
import SyntaxQuery.Proofs.Tree.Origin

namespace SyntaxQuery.Query

open SyntaxQuery.Journal SyntaxQuery.Number SyntaxQuery.Selector SyntaxQuery.Tree

/-- Tokens that lead to nodes and let one tell from a node which one they came from: all but the
descendant combinator and the link to the parent. -/
def isTraceable : Token → Bool
  | .id name => name ≠ "parent"
  | .combinator content => content ≠ descendant
  | .pseudoElement _ => false
  | _ => true

def origin (k : Located) : Token → Option Located
  | .id name => (Link.ofName? name).bind k.back
  | .combinator content =>
    if content = nextSibling then k.previousNamed
    else if content = previousSibling then k.nextNamed
    else k.parent
  | .pseudoClass .. => k.parent
  | _ => some k

theorem eq_parent_of_ofName? {name : String} (h : Link.ofName? name = some .parent) :
    name = "parent" := by
  unfold Link.ofName? at h
  split at h
  · rfl
  all_goals cases h

theorem takesValue_of_isTraceable {t : Token} (h : isTraceable t = true) : takesValue t = false := by
  cases t with
  | pseudoElement name => cases h
  | _ => rfl

theorem origin_of_leads {t : Token} (ht : isTraceable t = true) {n k : Located} (h : Leads t n k) :
    origin k t = some n := by
  cases h with
  | className _ | property _ _ => rfl
  | @id name n k link hl hk =>
    have hp : link ≠ .parent := by
      rintro rfl
      exact of_decide_eq_true ht (eq_parent_of_ofName? hl)
    rw [origin, hl]
    exact Located.back_of_along hp hk
  | descendant _ => cases ht
  | child hk => exact Located.parent_of_mem_children hk
  | next hk => exact Located.previousNamed_of_nextNamed hk
  | previous hk => exact Located.nextNamed_of_previousNamed hk
  | pseudoClass _ _ hk => exact Located.parent_of_move hk

theorem nodup_targets (n : Located) (t : Token) : (targets n t).Nodup := by
  refine (targets_pairwise n t).imp fun {a b} h => ?_
  rintro rfl
  exact not_precedes_self n a h

theorem nodup_flatMap_targets {t : Token} (ht : isTraceable t = true) {nodes : List Located}
    (h : nodes.Nodup) : (nodes.flatMap (targets · t)).Nodup := by
  refine List.nodup_flatMap.mpr ⟨fun n _ => nodup_targets n t, h.imp fun {a b} hne k ha hb => ?_⟩
  have ho := origin_of_leads ht (leads_of_mem_targets ha)
  rw [origin_of_leads ht (leads_of_mem_targets hb)] at ho
  exact hne (Option.some.inj ho).symm

theorem nodup_flatMap_ends {rest : List Token} (h : ∀ t ∈ rest, isTraceable t = true)
    {nodes : List Located} (hn : nodes.Nodup) : (nodes.flatMap (ends rest)).Nodup := by
  induction rest generalizing nodes with
  | nil =>
    rw [show ends [] = fun n => [n] from rfl, List.flatMap_singleton']
    exact hn
  | cons t rest ih =>
    obtain ⟨ht, hr⟩ := List.forall_mem_cons.mp h
    have ha := ih hr (nodup_flatMap_targets ht hn)
    rw [List.flatMap_assoc] at ha
    exact ha

/-- Only the descendant combinator and the link to the parent come to a node in two ways: without
them, and if no value is taken, all results are nodes and no two of them are the same. -/
theorem execute_nodup {rest : List Token} (h : ∀ t ∈ rest, isTraceable t = true) (verbose : Bool)
    (root : Located) (kind : String) :
    ∃ found : List Located,
      (execute verbose (.node root) (.className kind :: rest)).value = .ok (found.map Match.node) ∧
      found.Nodup := by
  exact ⟨_, value_execute_ends (fun t ht => takesValue_of_isTraceable (h t ht)) verbose root kind,
    nodup_flatMap_ends h (root.nodup_postOrder.filter _)⟩

def traceableTokens : List Token :=
  [.combinator child, .property "isNamed" none none none, .combinator previousSibling,
    .id "next_sibling", .pseudoClass "namedChild" (some (.text "0")), .className "name"]

theorem execute_nodup_nestedBlocks :
    (∀ t ∈ traceableTokens, isTraceable t = true) ∧
      ∃ found : List Located,
        (execute false (.node (.root nestedBlocks)) (.className "block" :: traceableTokens)).value =
          .ok (found.map Match.node) ∧
        found.Nodup ∧ found.map Located.rank = [3] := by
  have h : ∀ t ∈ traceableTokens, isTraceable t = true := by decide
  obtain ⟨found, hf, hn⟩ := execute_nodup h false (.root nestedBlocks) "block"
  have hv : ∀ t ∈ traceableTokens, takesValue t = false := by decide
  have he := value_execute_ends hv false (.root nestedBlocks) "block"
  obtain rfl := map_node_injective (Except.ok.inj (he.symm.trans hf))
  exact ⟨h, _, hf, hn, rfl⟩

end SyntaxQuery.Query
