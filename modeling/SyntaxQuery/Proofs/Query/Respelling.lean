import SyntaxQuery.Proofs.Number.Decimal
import SyntaxQuery.Proofs.Query.Descent
import SyntaxQuery.Proofs.Query.Downward

namespace SyntaxQuery.Query

open SyntaxQuery.Journal SyntaxQuery.Number SyntaxQuery.Selector SyntaxQuery.Tree

/-- The second token is the first one, or spells the same move in another way: a combinator of
siblings as a link, or a link to a first child as a move with the index zero. -/
inductive Respells : Token → Token → Prop where
  | same (t : Token) : Respells t t
  | next {name : String} (h : Link.ofName? name = some .nextNamedSibling) :
      Respells (.combinator nextSibling) (.id name)
  | previous {name : String} (h : Link.ofName? name = some .previousNamedSibling) :
      Respells (.combinator previousSibling) (.id name)
  | firstChild {name index : String} {argument : Option Scalar}
      (h : Link.ofName? name = some .firstChild) (hm : Move.ofName? index = some .child)
      (hi : indexOf? argument = some 0) : Respells (.id name) (.pseudoClass index argument)
  | firstNamedChild {name index : String} {argument : Option Scalar}
      (h : Link.ofName? name = some .firstNamedChild) (hm : Move.ofName? index = some .namedChild)
      (hi : indexOf? argument = some 0) : Respells (.id name) (.pseudoClass index argument)

theorem targets_child {index : String} {argument : Option Scalar} {i : Int}
    (hm : Move.ofName? index = some .child) (hi : indexOf? argument = some i) (n : Located) :
    targets n (.pseudoClass index argument) = (n.child i).toList := by
  rw [targets, hi, Option.bind_some, hm, Option.bind_some]
  rfl

theorem targets_respelled {t t' : Token} (h : Respells t t') (n : Located) :
    targets n t = targets n t' := by
  cases h with
  | same t => rfl
  | next h | previous h =>
    rw [targets, targets, h, Option.bind_some]
    rfl
  | firstChild h hm hi =>
    rw [targets_child hm hi, targets, h, Option.bind_some]
    rfl
  | firstNamedChild h hm hi =>
    rw [targets, targets, h, hi, Option.bind_some, Option.bind_some, hm, Option.bind_some]
    rfl

theorem walk_respelled {rest rest' : List Token} (h : List.Forall₂ Respells rest rest')
    (verbose verbose' : Bool) (total total' : Nat) (n : Located) :
    (walk verbose total rest n).value = (walk verbose' total' rest' n).value := by
  induction h generalizing n with
  | nil => rfl
  | @cons t t' rest rest' ht hr ih =>
    cases hv : takesValue t with
    | false =>
      have hv' : takesValue t' = false := by
        cases ht with
        | same t => exact hv
        | _ => rfl
      rw [value_walk_cons hv, value_walk_cons hv', targets_respelled ht]
      exact List.flatMap_congr fun k _ => ih k
    | true =>
      -- what takes a value has no other spelling; behind it only counts whether more tokens follow
      cases ht with
      | same t =>
        cases t with
        | pseudoElement name =>
          rw [value_walk_pseudoElement, value_walk_pseudoElement]
          cases hr <;> rfl
        | _ => cases hv
      | _ => cases hv

theorem flatMap_range_getElem? {α β : Type} (items : List α) (f : α → List β) :
    items.flatMap f = (List.range items.length).flatMap fun i => items[i]?.toList.flatMap f := by
  induction items with
  | nil => rfl
  | cons a items ih =>
    rw [List.flatMap_cons, ih, List.length_cons, List.range_succ_eq_map, List.flatMap_cons,
      List.flatMap_map]
    simp

theorem value_walkFrom_zero (verbose : Bool) (tokens : List Token) (n : Located) :
    (walkFrom verbose tokens 0 n).value = (walk verbose tokens.length tokens n).value := rfl

theorem walk_children {index : String} (hm : Move.ofName? index = some .child) {n : Located}
    {argument : Nat → Option Scalar}
    (h : ∀ i < n.children.length, indexOf? (argument i) = some (i : Int))
    (verbose verbose' : Bool) (rest : List Token) :
    (walkFrom verbose (.combinator child :: rest) 0 n).value =
      (List.range n.children.length).flatMap fun i =>
        (walkFrom verbose' (.pseudoClass index (argument i) :: rest) 0 n).value := by
  have hc : targets n (.combinator child) = n.children := rfl
  rw [value_walkFrom_zero, value_walk_cons rfl, hc, flatMap_range_getElem?]
  refine List.flatMap_congr fun i hi => ?_
  rw [value_walkFrom_zero, value_walk_cons rfl, targets_child hm (h i (List.mem_range.mp hi))]
  exact List.flatMap_congr fun k _ => value_walk_congr _ _ _ _ rest k

theorem walk_lastChild {name index : String} (h : Link.ofName? name = some .lastChild)
    (hm : Move.ofName? index = some .child) {n : Located} {argument : Option Scalar}
    (hi : indexOf? argument = some (n.children.length - 1 : Int)) (verbose verbose' : Bool)
    (rest : List Token) :
    (walkFrom verbose (.id name :: rest) 0 n).value =
        (walkFrom verbose' (.pseudoClass index argument :: rest) 0 n).value ∧
      (n.children = [] → (walkFrom verbose (.id name :: rest) 0 n).value = []) := by
  have ht : targets n (.id name) = (n.child (n.children.length - 1)).toList := by
    rw [targets, h]
    rfl
  rw [value_walkFrom_zero, value_walkFrom_zero, value_walk_cons rfl, value_walk_cons rfl, ht,
    targets_child hm hi]
  refine ⟨List.flatMap_congr fun k _ => value_walk_congr _ _ _ _ rest k, fun hn => ?_⟩
  rw [hn]
  rfl

theorem execute_respelled {tokens tokens' : List Token} (h : List.Forall₂ Respells tokens tokens')
    (verbose verbose' : Bool) (subject : Subject) :
    (execute verbose subject tokens).value = (execute verbose' subject tokens').value ∨
      (execute verbose subject tokens).value =
          .error (.refused (.noLeadingClass (render tokens))) ∧
        (execute verbose' subject tokens').value =
          .error (.refused (.noLeadingClass (render tokens'))) := by
  cases h with
  | nil => exact .inl rfl
  | @cons t t' rest rest' ht hr =>
    cases subject with
    | rootless typeName => exact .inl rfl
    | node root =>
      -- no class has another spelling, so both selectors begin with the same class or with none
      cases ht with
      | same t =>
        cases t with
        | className kind =>
          rw [value_execute, value_execute]
          refine .inl (congrArg Except.ok (List.flatMap_congr fun k _ => ?_))
          exact walk_respelled hr _ _ _ _ k
        | _ => exact .inr ⟨rfl, rfl⟩
      | _ => exact .inr ⟨rfl, rfl⟩

/-- Moves that have two spellings can be written in either of them, whatever else the selector asks
for: a step to the children is a step to each index in turn, selectors that differ in the spelling of
moves give the same, and the last child is the one below the number of children. -/
theorem spellings_are_interchangeable (verbose verbose' : Bool) :
    (∀ (n : Located) (rest : List Token) (argument : Nat → Option Scalar),
      (∀ i < n.children.length, indexOf? (argument i) = some (i : Int)) →
      (walkFrom verbose (.combinator child :: rest) 0 n).value =
        (List.range n.children.length).flatMap fun i =>
          (walkFrom verbose' (.pseudoClass "child" (argument i) :: rest) 0 n).value) ∧
    (∀ (subject : Subject) (tokens tokens' : List Token), List.Forall₂ Respells tokens tokens' →
      (execute verbose subject tokens).value = (execute verbose' subject tokens').value ∨
        (execute verbose subject tokens).value =
            .error (.refused (.noLeadingClass (render tokens))) ∧
          (execute verbose' subject tokens').value =
            .error (.refused (.noLeadingClass (render tokens')))) ∧
    ∀ (n : Located) (rest : List Token) (argument : Option Scalar),
      indexOf? argument = some (n.children.length - 1 : Int) →
      (walkFrom verbose (.id "lastChild" :: rest) 0 n).value =
          (walkFrom verbose' (.pseudoClass "child" argument :: rest) 0 n).value ∧
        (n.children = [] → (walkFrom verbose (.id "lastChild" :: rest) 0 n).value = []) := by
  exact ⟨fun n rest argument h => walk_children rfl h verbose verbose' rest,
    fun subject tokens tokens' h => execute_respelled h verbose verbose' subject,
    fun n rest argument h => walk_lastChild rfl rfl h verbose verbose' rest⟩

def indexText (i : Int) : Option Scalar :=
  some (.text (String.ofList (decimal i)))

theorem indexOf?_indexText {i : Int} (h : isShort i = true) : indexOf? (indexText i) = some i := by
  rw [indexText, indexOf?, String.toList_ofList, wholeInteger?_decimal h]

def shortMoves : List Token :=
  [.className "program", .id "firstChild", .combinator nextSibling, .combinator previousSibling,
    .id "firstNamedChild"]

def longMoves : List Token :=
  [.className "program", .pseudoClass "child" (indexText 0), .id "nextNamedSibling",
    .id "previousNamedSibling", .pseudoClass "namedChild" (indexText 0)]

theorem respells_shortMoves : List.Forall₂ Respells shortMoves longMoves :=
  .cons (.same _) <| .cons (.firstChild rfl rfl (indexOf?_indexText rfl)) <| .cons (.next rfl) <|
    .cons (.previous rfl) <| .cons (.firstNamedChild rfl rfl (indexOf?_indexText rfl)) .nil

theorem spellings_are_interchangeable_blockProgram :
    (∀ i : Nat, i < blockProgram.children.length → indexOf? (indexText i) = some (i : Int)) ∧
      List.Forall₂ Respells shortMoves longMoves ∧
      ∃ inner names last : List Located,
        inner.map Located.rank = [3, 7] ∧ names.map Located.rank = [2] ∧
        last.map Located.rank = [5] ∧
        (walkFrom false [.combinator child, .id "lastChild"] 0 blockProgram).value =
          inner.map Match.node ∧
        ((List.range blockProgram.children.length).flatMap fun i : Nat =>
          (walkFrom false [.pseudoClass "child" (indexText i), .id "lastChild"] 0
            blockProgram).value) = inner.map Match.node ∧
        (execute false (.node blockProgram) shortMoves).value = .ok (names.map Match.node) ∧
        (execute false (.node blockProgram) longMoves).value = .ok (names.map Match.node) ∧
        (walkFrom false [.id "lastChild"] 0 blockProgram).value = last.map Match.node ∧
        (walkFrom false [.pseudoClass "child" (indexText 1)] 0 blockProgram).value =
          last.map Match.node := by
  have hi : ∀ i : Nat, i < blockProgram.children.length →
      indexOf? (indexText i) = some (i : Int) := by
    intro i h
    have h : i < 2 := h
    obtain rfl | rfl : i = 0 ∨ i = 1 := by omega
    · exact indexOf?_indexText rfl
    · exact indexOf?_indexText rfl
  have hn : indexOf? (indexText 1) = some (blockProgram.children.length - 1 : Int) := hi 1 (by decide)
  obtain ⟨hc, he, hl⟩ := spellings_are_interchangeable false false
  have hv : ∀ t ∈ [Token.combinator child, .id "lastChild"], takesValue t = false := by decide
  have hw := value_walk_ends hv false 2 blockProgram
  have hx := value_walk_ends (List.forall_mem_cons.mp hv).2 false 1 blockProgram
  have hs : (execute false (.node blockProgram) shortMoves).value = _ :=
    value_execute_ends (by decide) false blockProgram "program"
  refine ⟨hi, respells_shortMoves, _, _, _, rfl, rfl, rfl, hw, ?_, hs, ?_, hx, ?_⟩
  · exact (hc blockProgram [.id "lastChild"] (fun i => indexText i) hi).symm.trans hw
  · obtain h | ⟨h, -⟩ := he (.node blockProgram) shortMoves longMoves respells_shortMoves
    · exact h.symm.trans hs
    · exact nomatch hs.symm.trans h
  · exact (hl blockProgram [] (indexText 1) hn).1.symm.trans hx

end SyntaxQuery.Query
