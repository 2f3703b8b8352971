import Mathlib.Data.List.Flatten
import SyntaxQuery.Proofs.Query.Downward

namespace SyntaxQuery.Query

open SyntaxQuery.Journal SyntaxQuery.Selector SyntaxQuery.Tree

def isTest : Token → Bool
  | .className _ | .property .. => true
  | _ => false

/-- The second tokens ask for more than the first ones: tests are added anywhere, and some steps to
all nodes below become steps to the children. -/
inductive Narrows : List Token → List Token → Prop where
  | done : Narrows [] []
  | keep (t : Token) {wide narrow : List Token} (h : Narrows wide narrow) :
      Narrows (t :: wide) (t :: narrow)
  | test {t : Token} (ht : isTest t = true) {wide narrow : List Token} (h : Narrows wide narrow) :
      Narrows wide (t :: narrow)
  | step {wide narrow : List Token} (h : Narrows wide narrow) :
      Narrows (.combinator descendant :: wide) (.combinator child :: narrow)

theorem Narrows.eq_nil {wide : List Token} (h : Narrows wide []) : wide = [] := by
  cases h
  rfl

theorem takesValue_of_isTest {t : Token} (h : isTest t = true) : takesValue t = false := by
  cases t with
  | pseudoElement name => cases h
  | _ => rfl

theorem targets_sublist_of_isTest {t : Token} (h : isTest t = true) (n : Located) :
    (targets n t).Sublist [n] := by
  cases t with
  | className name =>
    rw [targets]
    split
    · exact .refl [n]
    · exact List.nil_sublist [n]
  | property name operator value flag =>
    rw [targets]
    cases (Property.ofName? name).filter fun p => (accepts (n.value p) operator value flag).value with
    | none => exact List.nil_sublist [n]
    | some p => exact .refl [n]
  | _ => cases h

variable {wide narrow : List Token}

/-- A walk along narrower tokens finds a part of what the walk along the wider ones finds, in the
same order. -/
theorem value_walk_narrows (h : Narrows wide narrow) (verbose : Bool) (total : Nat) (n : Located) :
    (walk verbose total narrow n).value.Sublist (walk verbose total wide n).value := by
  induction h generalizing n with
  | done => exact .refl _
  | @keep t wide narrow h ih =>
    cases hv : takesValue t with
    | false =>
      rw [value_walk_cons hv, value_walk_cons hv]
      exact List.Sublist.flatMap_right _ fun k _ => ih k
    | true =>
      cases t with
      | pseudoElement name =>
        rw [value_walk_pseudoElement, value_walk_pseudoElement]
        cases narrow with
        | nil => rw [h.eq_nil]
        | cons t narrow => exact List.nil_sublist _
      | _ => cases hv
  | @test t ht wide narrow _ ih =>
    rw [value_walk_cons (takesValue_of_isTest ht)]
    have hs := (targets_sublist_of_isTest ht n).flatMap fun k => (walk verbose total narrow k).value
    rw [List.flatMap_singleton] at hs
    exact hs.trans (ih n)
  | @step wide narrow _ ih =>
    rw [value_walk_cons rfl, value_walk_cons rfl]
    have hc := List.Sublist.flatMap_right n.children fun k _ => ih k
    exact hc.trans (n.children_sublist.flatMap _)

/-- Selectors are narrowed by more tests, and by children in the place of all nodes below: what is
found is a part of what was found before, in the same order and nothing more often. -/
theorem execute_narrows (h : Narrows wide narrow) (verbose verbose' : Bool) (root : Located)
    (kind : String) :
    ∃ found fewer,
      (execute verbose (.node root) (.className kind :: wide)).value = .ok found ∧
      (execute verbose' (.node root) (.className kind :: narrow)).value = .ok fewer ∧
      fewer.Sublist found := by
  refine ⟨_, _, value_execute verbose root kind wide, value_execute verbose' root kind narrow, ?_⟩
  refine List.Sublist.flatMap_right _ fun n _ => ?_
  rw [value_walk_congr verbose verbose' (wide.length + 1) (narrow.length + 1)]
  exact value_walk_narrows h verbose' _ n

def wideTokens : List Token :=
  [.combinator descendant, .pseudoElement "type"]

def narrowTokens : List Token :=
  [.combinator child, .className "name",
    .property "childCount" (some "=") (some (.text "0")) none, .pseudoElement "type"]

theorem execute_narrows_nestedBlocks :
    Narrows wideTokens narrowTokens ∧
      ∃ found fewer : List Match,
        found = ["name", "block", "name", "name", "block", "block"].map (Match.value <| .text ·) ∧
        fewer = ["name", "name"].map (Match.value <| .text ·) ∧
        (execute false (.node (.root nestedBlocks)) (.className "block" :: wideTokens)).value =
          .ok found ∧
        (execute false (.node (.root nestedBlocks)) (.className "block" :: narrowTokens)).value =
          .ok fewer ∧
        fewer.Sublist found := by
  have h : Narrows wideTokens narrowTokens := .step (.test rfl (.test rfl (.keep _ .done)))
  obtain ⟨found, fewer, hf, hm, hs⟩ := execute_narrows h false false (.root nestedBlocks) "block"
  refine ⟨h, found, fewer, ?_, ?_, hf, hm, hs⟩
  · rw [value_execute] at hf
    simp only [value_walk] at hf
    exact (Except.ok.inj hf).symm
  · rw [value_execute] at hm
    simp only [value_walk] at hm
    exact (Except.ok.inj hm).symm

end SyntaxQuery.Query
