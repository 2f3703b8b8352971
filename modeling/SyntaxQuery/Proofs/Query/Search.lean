import SyntaxQuery.Proofs.Query.Path

namespace SyntaxQuery.Query

open SyntaxQuery.Journal SyntaxQuery.Number SyntaxQuery.Selector SyntaxQuery.Tree

theorem value_joinEach {α β : Type} (f : α → Logged (List β)) (items : List α) :
    (joinEach f items).value = items.flatMap fun a => (f a).value := by
  induction items with
  | nil => rfl
  | cons a items ih =>
    rw [List.flatMap_cons, ← ih]
    rfl

theorem value_continueAt (go : Located → Logged (List Match)) (o : Option Located) :
    (continueAt go o).value = o.toList.flatMap fun k => (go k).value := by
  cases o with
  | none => rfl
  | some k => simp [continueAt]

theorem value_linked (n : Located) (name : String) :
    (known (n.linked name)).value = (Link.ofName? name).bind n.along := by
  rw [Located.linked]
  cases Link.ofName? name with
  | none => rfl
  | some link => rfl

theorem value_moved (n : Located) (name : String) (i : Int) :
    (known (n.moved name i)).value = (Move.ofName? name).bind (n.move · i) := by
  rw [Located.moved]
  cases Move.ofName? name with
  | none => rfl
  | some move => rfl

theorem value_property (n : Located) (name : String) :
    (known (n.property name)).value = (Property.ofName? name).bind n.value := by
  rw [Located.property]
  cases Property.ofName? name with
  | none => rfl
  | some p => rfl

theorem value_test (verbose : Bool) (n : Located) (name : String) (operator : Option String)
    (value : Option Scalar) (flag : Option String) :
    (test verbose n name operator value flag).value =
      (Property.ofName? name).any fun p => (accepts (n.value p) operator value flag).value := by
  rw [test, Located.property]
  cases Property.ofName? name with
  | none => rfl
  | some p => rfl

theorem value_extract (verbose : Bool) (n : Located) (name : String) (more : Bool) :
    (extract verbose n name more).value =
      if more then [] else ((Property.ofName? name).bind n.value).toList.map .value := by
  rw [extract, Logged.value_bind, value_property]
  cases (Property.ofName? name).bind n.value with
  | none => cases more <;> rfl
  | some v => cases more <;> rfl

theorem value_combine (go : Located → Logged (List Match)) (content : String) (n : Located) :
    (combine go content n).value =
      (targets n (.combinator content)).flatMap fun k => (go k).value := by
  rw [combine, targets]
  split
  · rw [gather_eq, value_joinEach]
  split
  · exact value_joinEach go n.children
  split
  · exact value_continueAt go n.nextNamed
  split
  · exact value_continueAt go n.previousNamed
  · rfl

/-- A step goes on exactly at the nodes that its token leads to, and joins what it finds there. -/
theorem value_step {more : Bool} {t : Token} (h : ∀ name, t = .pseudoElement name → more = true)
    (verbose : Bool) (go : Located → Logged (List Match)) (n : Located) :
    (step verbose more go n t).value = (targets n t).flatMap fun k => (go k).value := by
  cases t with
  | className name =>
    rw [step, targets]
    split
    · exact (List.flatMap_singleton _ _).symm
    · rfl
  | id name => rw [step, Logged.value_bind, value_linked, value_continueAt, targets]
  | property name operator value flag =>
    rw [step, Logged.value_bind, value_test, targets]
    cases Property.ofName? name with
    | none => rfl
    | some p =>
      cases ha : (accepts (n.value p) operator value flag).value <;> simp [ha, Option.filter]
  | combinator content => exact value_combine go content n
  | pseudoClass name argument =>
    rw [step, targets]
    cases indexOf? argument with
    | none => rfl
    | some i => simp [value_moved, value_continueAt]
  | pseudoElement name => rw [step, value_extract, h name rfl]; rfl
  | foreign serial text kind => rfl

/-- A walk finds the ends of all ways along its tokens, one for each way and in the same order. -/
theorem value_walk (verbose : Bool) (total : Nat) (rest : List Token) (n : Located) :
    (walk verbose total rest n).value =
      (routes rest n).map fun stops => stops.getLastD (.node n) := by
  induction rest, n using routes.induct with
  | case1 n => rw [walk, routes]; rfl
  | case2 name n =>
    rw [walk, Logged.value_bind, step, value_extract, routes, List.map_map]
    rfl
  | case3 t rest n hne ih =>
    have hm : ∀ name, t = .pseudoElement name → (!rest.isEmpty) = true := by
      intro name ht
      cases rest with
      | nil => exact (hne name ht rfl).elim
      | cons t' rest => rfl
    rw [walk, Logged.value_bind, value_step hm, routes_cons hne, List.map_flatMap]
    congr 1
    funext k
    rw [ih, List.map_map]
    congr 1
    funext stops
    rw [Function.comp_apply, List.getLastD_cons]

theorem candidates_eq (kind : String) (n : Located) :
    candidates kind n = n.postOrder.filter fun k => k.kind = kind := by
  rw [candidates, descendAll, gather_eq]
  induction n.postOrder with
  | nil => rfl
  | cons k nodes ih =>
    rw [List.filter_cons, ← ih]
    by_cases h : k.kind = kind
    · simp [joinEach, h]
    · simp [joinEach, h]

theorem value_tryCandidate (verbose : Bool) (total : Nat) (rest : List Token) (n : Located) :
    (tryCandidate verbose total rest n).value = (walk verbose total rest n).value := by
  rw [tryCandidate, Logged.value_bind]
  split <;> rfl

theorem Path.finish_eq (n : Located) (stops : List Match) :
    Path.finish ⟨n, stops⟩ = stops.getLastD (.node n) := by
  cases stops with
  | nil => rfl
  | cons s stops => rfl

theorem value_seek_eq (verbose : Bool) (selector kind : String) (rest : List Token)
    (root : Located) :
    (seek verbose selector kind rest root).value =
      (root.postOrder.filter fun n => n.kind = kind).flatMap fun n =>
        (walk verbose (rest.length + 1) rest n).value := by
  have hs : (seek verbose selector kind rest root).value =
      (joinEach (tryCandidate verbose (rest.length + 1) rest) (candidates kind root)).value := by
    rw [seek]
    cases verbose <;> rfl
  rw [hs, value_joinEach, candidates_eq]
  simp only [value_tryCandidate]

theorem value_execute (verbose : Bool) (root : Located) (kind : String) (rest : List Token) :
    (execute verbose (.node root) (.className kind :: rest)).value =
      .ok ((root.postOrder.filter fun n => n.kind = kind).flatMap fun n =>
        (walk verbose (rest.length + 1) rest n).value) := by
  rw [← value_seek_eq verbose (render (.className kind :: rest)) kind rest root]
  rfl

theorem value_seek (verbose : Bool) (selector kind : String) (rest : List Token) (root : Located) :
    (seek verbose selector kind rest root).value = (paths root kind rest).map Path.finish := by
  rw [value_seek_eq, paths, List.map_flatMap]
  congr 1
  funext n
  rw [value_walk, List.map_map]
  congr 1
  funext stops
  exact (Path.finish_eq n stops).symm

/-- A query finds the ends of the paths of its selector: of all of them and of nothing else, of each
once, and in the order in which the paths part. -/
theorem execute_finds_paths (verbose : Bool) (root : Located) (kind : String) (rest : List Token) :
    ∃ paths : List Path,
      (execute verbose (.node root) (.className kind :: rest)).value =
        .ok (paths.map Path.finish) ∧
      (∀ p, p ∈ paths ↔ p.Fits root kind rest) ∧ paths.Nodup ∧
      paths.Pairwise fun p q => PartsBefore root p.trace q.trace := by
  refine ⟨paths root kind rest, ?_, fun p => mem_paths, ?_, paths_pairwise root kind rest⟩
  · rw [← value_seek verbose (render (.className kind :: rest)) kind rest root]
    rfl
  · refine (paths_pairwise root kind rest).imp fun {p q} h he => ?_
    subst he
    exact not_partsBefore_self root _ h

end SyntaxQuery.Query
