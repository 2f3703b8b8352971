import SyntaxQuery.Proofs.Tree.PostOrder
import SyntaxQuery.Query.Run

namespace SyntaxQuery.Query

open SyntaxQuery.Journal SyntaxQuery.Number SyntaxQuery.Selector SyntaxQuery.Tree

/-- Where a token leads from a node. A test stays at the node, and a name that means nothing leads
nowhere. -/
inductive Leads : Token → Located → Located → Prop where
  | className {name : String} {n : Located} (h : n.kind = name) : Leads (.className name) n n
  | id {name : String} {n k : Located} {link : Link} (hl : Link.ofName? name = some link)
      (hk : n.along link = some k) : Leads (.id name) n k
  | property {name : String} {operator : Option String} {value : Option Scalar}
      {flag : Option String} {n : Located} {p : Property} (hp : Property.ofName? name = some p)
      (ha : (accepts (n.value p) operator value flag).value = true) :
      Leads (.property name operator value flag) n n
  | descendant {n k : Located} (h : n.Holds k) : Leads (.combinator descendant) n k
  | child {n k : Located} (h : k ∈ n.children) : Leads (.combinator child) n k
  | next {n k : Located} (h : n.nextNamed = some k) : Leads (.combinator nextSibling) n k
  | previous {n k : Located} (h : n.previousNamed = some k) :
      Leads (.combinator previousSibling) n k
  | pseudoClass {name : String} {argument : Option Scalar} {n k : Located} {i : Int} {move : Move}
      (hi : indexOf? argument = some i) (hm : Move.ofName? name = some move)
      (hk : n.move move i = some k) : Leads (.pseudoClass name argument) n k

/-- The stops of a way along tokens from a node on: a node for each token, or at the very end the
value of a property. -/
inductive Follows : List Token → Located → List Match → Prop where
  | done (n : Located) : Follows [] n []
  | move {t : Token} {rest : List Token} {n k : Located} {stops : List Match} (hk : Leads t n k)
      (hs : Follows rest k stops) : Follows (t :: rest) n (.node k :: stops)
  | value {name : String} {n : Located} {p : Property} {v : Scalar}
      (hp : Property.ofName? name = some p) (hv : n.value p = some v) :
      Follows [.pseudoElement name] n [.value v]

structure Path where
  start : Located
  stops : List Match

namespace Path

def trace (p : Path) : List Match :=
  .node p.start :: p.stops

def finish (p : Path) : Match :=
  p.trace.getLast (List.cons_ne_nil _ _)

/-- A path of a selector: it starts at a node of the leading class in the subtree, and follows the
rest of the tokens. -/
structure Fits (root : Located) (kind : String) (rest : List Token) (p : Path) : Prop where
  holds : root.Holds p.start
  kind : p.start.kind = kind
  follows : Follows rest p.start p.stops

end Path

def Precedes (n a b : Located) : Prop :=
  [a, b].Sublist n.postOrder

/-- Two ways part at a stop, and there the first one goes to the node that comes before in the
subtree of the last common stop. -/
inductive PartsBefore : Located → List Match → List Match → Prop where
  | here {n a b : Located} (h : Precedes n a b) (p q : List Match) :
      PartsBefore n (.node a :: p) (.node b :: q)
  | later {n a : Located} {p q : List Match} (h : PartsBefore a p q) :
      PartsBefore n (.node a :: p) (.node a :: q)

theorem not_precedes_self (n a : Located) : ¬ Precedes n a a := by
  intro h
  have := h.nodup n.nodup_postOrder
  simp at this

theorem not_partsBefore_self (n : Located) (p : List Match) : ¬ PartsBefore n p p := by
  intro h
  induction p generalizing n with
  | nil => cases h
  | cons s p ih =>
    cases h with
    | here h => exact not_precedes_self n _ h
    | later h => exact ih _ h

theorem postOrder_pairwise (n : Located) : n.postOrder.Pairwise (Precedes n) :=
  List.pairwise_iff_forall_sublist.mpr fun h => h

theorem children_pairwise (n : Located) : n.children.Pairwise (Precedes n) :=
  (postOrder_pairwise n).sublist n.children_sublist

def targets (n : Located) : Token → List Located
  | .className name => if n.kind = name then [n] else []
  | .id name => ((Link.ofName? name).bind n.along).toList
  | .property name operator value flag =>
    ((Property.ofName? name).filter fun p =>
      (accepts (n.value p) operator value flag).value).toList.map fun _ => n
  | .combinator content =>
    if content = descendant then n.postOrder
    else if content = child then n.children
    else if content = nextSibling then n.nextNamed.toList
    else if content = previousSibling then n.previousNamed.toList
    else []
  | .pseudoClass name argument =>
    ((indexOf? argument).bind fun i => (Move.ofName? name).bind (n.move · i)).toList
  | .pseudoElement _ => []
  | .foreign .. => []

theorem leads_of_mem_targets {t : Token} {n k : Located} (h : k ∈ targets n t) : Leads t n k := by
  cases t with
  | className name =>
    rw [targets] at h
    split at h
    · obtain rfl := List.mem_singleton.mp h
      exact .className ‹_›
    · cases h
  | id name =>
    obtain ⟨link, hl, hk⟩ := Option.bind_eq_some_iff.mp (Option.mem_toList.mp h)
    exact .id hl hk
  | property name operator value flag =>
    obtain ⟨p, hp, rfl⟩ := List.mem_map.mp h
    obtain ⟨hp, ha⟩ := Option.filter_eq_some_iff.mp (Option.mem_toList.mp hp)
    exact .property hp ha
  | combinator content =>
    rw [targets] at h
    split at h
    · subst content
      exact .descendant (Located.mem_postOrder.mp h)
    split at h
    · subst content
      exact .child h
    split at h
    · subst content
      exact .next (Option.mem_toList.mp h)
    split at h
    · subst content
      exact .previous (Option.mem_toList.mp h)
    · cases h
  | pseudoClass name argument =>
    obtain ⟨i, hi, h⟩ := Option.bind_eq_some_iff.mp (Option.mem_toList.mp h)
    obtain ⟨move, hm, hk⟩ := Option.bind_eq_some_iff.mp h
    exact .pseudoClass hi hm hk
  | pseudoElement name => cases h
  | foreign serial text kind => cases h

theorem mem_targets_of_leads {t : Token} {n k : Located} (h : Leads t n k) : k ∈ targets n t := by
  cases h with
  | className h => simp [targets, h]
  | id hl hk => simp [targets, hl, hk]
  | property hp ha => simp [targets, hp, ha]
  | descendant h => exact Located.mem_postOrder.mpr h
  | child h => exact h
  | next h => exact Option.mem_toList.mpr h
  | previous h => exact Option.mem_toList.mpr h
  | pseudoClass hi hm hk => simp [targets, hi, hm, hk]

theorem pairwise_toList (R : Located → Located → Prop) (o : Option Located) :
    o.toList.Pairwise R := by
  cases o with
  | none => exact .nil
  | some k => exact List.pairwise_singleton R k

/-- A token leads to nodes in post-order. -/
theorem targets_pairwise (n : Located) (t : Token) : (targets n t).Pairwise (Precedes n) := by
  cases t with
  | className name =>
    rw [targets]
    split
    · exact List.pairwise_singleton _ _
    · exact .nil
  | id name => exact pairwise_toList _ _
  | property name operator value flag =>
    rw [targets, ← Option.toList_map]
    exact pairwise_toList _ _
  | combinator content =>
    rw [targets]
    split
    · exact postOrder_pairwise n
    split
    · exact children_pairwise n
    split
    · exact pairwise_toList _ _
    split
    · exact pairwise_toList _ _
    · exact .nil
  | pseudoClass name argument => exact pairwise_toList _ _
  | pseudoElement name => exact .nil
  | foreign serial text kind => exact .nil

def routes : List Token → Located → List (List Match)
  | [], _ => [[]]
  | [.pseudoElement name], n =>
    ((Property.ofName? name).bind n.value).toList.map fun v => [.value v]
  | t :: rest, n => (targets n t).flatMap fun k => (routes rest k).map (.node k :: ·)

theorem routes_cons {t : Token} {rest : List Token}
    (h : ∀ name, t = .pseudoElement name → rest ≠ []) (n : Located) :
    routes (t :: rest) n = (targets n t).flatMap fun k => (routes rest k).map (.node k :: ·) := by
  rw [routes]
  exact h

theorem mem_routes_cons {t : Token} {rest : List Token} {n : Located} {stops : List Match} :
    (stops ∈ (targets n t).flatMap fun k => (routes rest k).map (.node k :: ·)) ↔
      ∃ k, k ∈ targets n t ∧ ∃ more, more ∈ routes rest k ∧ .node k :: more = stops := by
  simp only [List.mem_flatMap, List.mem_map]

theorem mem_routes {rest : List Token} {n : Located} {stops : List Match} :
    stops ∈ routes rest n ↔ Follows rest n stops := by
  constructor
  · induction rest, n using routes.induct generalizing stops with
    | case1 n =>
      intro h
      rw [routes] at h
      obtain rfl := List.mem_singleton.mp h
      exact .done n
    | case2 name n =>
      intro h
      rw [routes] at h
      obtain ⟨v, hv, rfl⟩ := List.mem_map.mp h
      obtain ⟨p, hp, hv⟩ := Option.bind_eq_some_iff.mp (Option.mem_toList.mp hv)
      exact .value hp hv
    | case3 t rest n hne ih =>
      intro h
      rw [routes_cons hne] at h
      obtain ⟨k, hk, more, hm, rfl⟩ := mem_routes_cons.mp h
      exact .move (leads_of_mem_targets hk) (ih k hm)
  · intro h
    induction h with
    | done n => exact List.mem_singleton.mpr rfl
    | @move t rest n k stops hk _ ih =>
      rw [routes_cons]
      · exact mem_routes_cons.mpr ⟨k, mem_targets_of_leads hk, stops, ih, rfl⟩
      · rintro name rfl
        cases hk
    | value hp hv => simp [routes, hp, hv]

theorem routes_pairwise (rest : List Token) (n : Located) :
    (routes rest n).Pairwise (PartsBefore n) := by
  induction rest, n using routes.induct with
  | case1 n => exact List.pairwise_singleton _ _
  | case2 name n =>
    rw [routes]
    cases (Property.ofName? name).bind n.value with
    | none => exact .nil
    | some v => exact List.pairwise_singleton _ _
  | case3 t rest n hne ih =>
    rw [routes_cons hne]
    refine List.pairwise_flatMap.mpr ⟨fun k _ => ?_, ?_⟩
    · exact List.pairwise_map.mpr ((ih k).imp .later)
    · refine (targets_pairwise n t).imp fun {a b} hab stops ha stops' hb => ?_
      obtain ⟨p, -, rfl⟩ := List.mem_map.mp ha
      obtain ⟨q, -, rfl⟩ := List.mem_map.mp hb
      exact .here hab p q

def paths (root : Located) (kind : String) (rest : List Token) : List Path :=
  (root.postOrder.filter fun n => n.kind = kind).flatMap fun n => (routes rest n).map (Path.mk n)

theorem mem_paths {root : Located} {kind : String} {rest : List Token} {p : Path} :
    p ∈ paths root kind rest ↔ p.Fits root kind rest := by
  rw [paths]
  constructor
  · intro h
    obtain ⟨n, hn, h⟩ := List.mem_flatMap.mp h
    obtain ⟨stops, hs, rfl⟩ := List.mem_map.mp h
    obtain ⟨hn, hk⟩ := List.mem_filter.mp hn
    exact ⟨Located.mem_postOrder.mp hn, of_decide_eq_true hk, mem_routes.mp hs⟩
  · intro h
    refine List.mem_flatMap.mpr ⟨p.start, List.mem_filter.mpr ⟨?_, decide_eq_true h.kind⟩, ?_⟩
    · exact Located.mem_postOrder.mpr h.holds
    · exact List.mem_map.mpr ⟨p.stops, mem_routes.mpr h.follows, rfl⟩

theorem paths_pairwise (root : Located) (kind : String) (rest : List Token) :
    (paths root kind rest).Pairwise fun p q => PartsBefore root p.trace q.trace := by
  rw [paths]
  refine List.pairwise_flatMap.mpr ⟨fun n _ => ?_, ?_⟩
  · exact List.pairwise_map.mpr ((routes_pairwise rest n).imp .later)
  · refine ((postOrder_pairwise root).filter _).imp fun {a b} hab p hp q hq => ?_
    obtain ⟨stops, -, rfl⟩ := List.mem_map.mp hp
    obtain ⟨stops', -, rfl⟩ := List.mem_map.mp hq
    exact .here hab stops stops'

end SyntaxQuery.Query
