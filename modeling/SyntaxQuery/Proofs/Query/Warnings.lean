import SyntaxQuery.Proofs.Journal.Entries
import SyntaxQuery.Proofs.Query.Downward
import SyntaxQuery.Proofs.Query.Refusal

namespace SyntaxQuery.Query

open SyntaxQuery.Journal SyntaxQuery.Number SyntaxQuery.Selector SyntaxQuery.Tree

/-- Whether a token means nothing: there is no property, link or move of its name, its index is no
integer, its operator or combinator is none of those that there are, or it is no step at all. -/
def isMeaningless : Token → Bool
  | .className _ => false
  | .id name => (Link.ofName? name).isNone
  | .property name operator _ _ => (Property.ofName? name).isNone || operator.any (· ∉ operators)
  | .combinator content => content ∉ [descendant, child, nextSibling, previousSibling]
  | .pseudoClass name argument => (Move.ofName? name).isNone || (indexOf? argument).isNone
  | .pseudoElement name => (Property.ofName? name).isNone
  | .foreign .. => true

theorem ofText?_isNone (text : String) :
    (Operator.ofText? text).isNone = decide (text ∉ operators) := by
  unfold Operator.ofText?
  split
  all_goals first
    | rfl
    | simp_all [operators]

theorem exists_of_isNone {α : Type} {o : Option α} (h : o.isNone = false) : ∃ a, o = some a := by
  rwa [← Option.isSome_iff_exists, ← Option.not_isNone, Bool.not_eq_true']

theorem warnings_trace (verbose : Bool) (message : String) :
    (trace verbose message).warnings = [] :=
  Logged.warnings_writeIf verbose _ message

theorem warnings_accepts {operator : Option String} (h : operator.any (· ∉ operators) = false)
    (value literal : Option Scalar) (flag : Option String) :
    (accepts value operator literal flag).warnings = [] := by
  cases operator with
  | none => rfl
  | some text =>
    rw [Option.any_some, ← ofText?_isNone] at h
    obtain ⟨operator, ho⟩ := exists_of_isNone h
    rw [accepts, ho]
    rfl

theorem warnings_test {name : String} {p : Property} {operator : Option String}
    (hp : Property.ofName? name = some p) (ho : operator.any (· ∉ operators) = false)
    (verbose : Bool) (n : Located) (value : Option Scalar) (flag : Option String) :
    (test verbose n name operator value flag).warnings = [] := by
  rw [test, Located.property, hp]
  simp only [Logged.warnings_bind, Logged.warnings_pure, warnings_accepts ho, warnings_trace,
    List.append_nil]

theorem warnings_extract {name : String} {p : Property} (hp : Property.ofName? name = some p)
    (verbose : Bool) (n : Located) (more : Bool) :
    (extract verbose n name more).warnings = [] := by
  rw [extract, Located.property, hp, known, pure_bind]
  cases n.value p with
  | none => rfl
  | some v => cases more <;> cases verbose <;> rfl

section

variable (go : Located → Logged (List Match)) (n : Located)

theorem warnings_continueAt (o : Option Located) :
    (continueAt go o).warnings = o.toList.flatMap fun k => (go k).warnings := by
  cases o with
  | none => rfl
  | some k => exact (List.flatMap_singleton _ _).symm

theorem warnings_combine {content : String}
    (h : content ∈ [descendant, child, nextSibling, previousSibling]) :
    (combine go content n).warnings =
      (targets n (.combinator content)).flatMap fun k => (go k).warnings := by
  simp only [List.mem_cons, List.not_mem_nil, or_false] at h
  obtain rfl | rfl | rfl | rfl := h
  · exact Logged.warnings_gather go n
  · exact Logged.warnings_joinEach go n.children
  · exact warnings_continueAt go n.nextNamed
  · exact warnings_continueAt go n.previousNamed

theorem warnings_step {t : Token} (h : isMeaningless t = false) (hv : takesValue t = false)
    (verbose more : Bool) :
    (step verbose more go n t).warnings = (targets n t).flatMap fun k => (go k).warnings := by
  cases t with
  | className name =>
    rw [step, targets]
    split
    · exact (List.flatMap_singleton _ _).symm
    · rfl
  | id name =>
    obtain ⟨link, hl⟩ := exists_of_isNone h
    rw [step, Located.linked, targets, hl]
    exact warnings_continueAt go (n.along link)
  | property name operator value flag =>
    obtain ⟨hn, ho⟩ := Bool.or_eq_false_iff.mp h
    obtain ⟨p, hp⟩ := exists_of_isNone hn
    rw [step, Logged.warnings_bind, warnings_test hp ho, value_test, targets, hp]
    cases ha : (accepts (n.value p) operator value flag).value <;>
      simp [ha, Option.filter, Logged.warnings_pure]
  | combinator content => exact warnings_combine go n (not_not.mp (of_decide_eq_false h))
  | pseudoClass name argument =>
    obtain ⟨hm, hi⟩ := Bool.or_eq_false_iff.mp h
    obtain ⟨move, hm⟩ := exists_of_isNone hm
    obtain ⟨i, hi⟩ := exists_of_isNone hi
    rw [step, targets, hi]
    dsimp only
    rw [Located.moved, hm]
    exact warnings_continueAt go (n.move move i)
  | pseudoElement name => cases hv
  | foreign serial text kind => cases h

end

/-- A step without a meaning ends the branch with one warning, wherever it is taken. -/
theorem step_of_isMeaningless {t : Token} (h : isMeaningless t = true) (verbose more : Bool)
    (go : Located → Logged (List Match)) (n : Located) :
    (step verbose more go n t).value = [] ∧ (step verbose more go n t).warnings.length = 1 := by
  cases t with
  | className name => cases h
  | id name =>
    rw [step, Located.linked, Option.isNone_iff_eq_none.mp h]
    exact ⟨rfl, rfl⟩
  | property name operator value flag =>
    rw [step, test, Located.property]
    cases hp : Property.ofName? name with
    | none => exact ⟨rfl, rfl⟩
    | some p =>
      -- an operator is looked at only behind a property that there is
      rw [isMeaningless, hp, Option.isNone_some, Bool.false_or, Option.any_eq_true] at h
      obtain ⟨text, rfl, ho⟩ := h
      rw [← ofText?_isNone, Option.isNone_iff_eq_none] at ho
      simp only [accepts, ho]
      cases verbose <;> exact ⟨rfl, rfl⟩
  | combinator content =>
    have hn : content ∉ [descendant, child, nextSibling, previousSibling] := of_decide_eq_true h
    simp only [List.mem_cons, List.not_mem_nil, or_false, not_or] at hn
    obtain ⟨hd, hc, hx, hp⟩ := hn
    rw [step, combine, if_neg hd, if_neg hc, if_neg hx, if_neg hp]
    exact ⟨rfl, rfl⟩
  | pseudoClass name argument =>
    rw [step]
    -- the index is read before the name is looked up: one warning, also where both are wrong
    cases hi : indexOf? argument with
    | none => exact ⟨rfl, rfl⟩
    | some i =>
      rw [isMeaningless, hi, Option.isNone_some, Bool.or_false, Option.isNone_iff_eq_none] at h
      dsimp only
      rw [Located.moved, h]
      exact ⟨rfl, rfl⟩
  | pseudoElement name =>
    rw [step, extract, Located.property, Option.isNone_iff_eq_none.mp h]
    exact ⟨rfl, rfl⟩
  | foreign serial text kind => exact ⟨rfl, rfl⟩

variable {first more : List Token} {t : Token} (verbose : Bool) (total : Nat)

theorem warnings_walk_cons (rest : List Token) (n : Located) :
    (walk verbose total (t :: rest) n).warnings =
      (step verbose (!rest.isEmpty) (walk verbose total rest) n t).warnings := by
  rw [walk, Logged.warnings_bind, warnings_trace, List.nil_append]

theorem warnings_walk_value (h : isMeaningless t = false) (hv : takesValue t = true)
    (rest : List Token) (n : Located) : (walk verbose total (t :: rest) n).warnings = [] := by
  cases t with
  | pseudoElement name =>
    obtain ⟨p, hp⟩ := exists_of_isNone h
    rw [warnings_walk_cons, step, warnings_extract hp]
  | _ => cases hv

theorem warnings_walk {rest : List Token} (h : ∀ s ∈ rest, isMeaningless s = false) (n : Located) :
    (walk verbose total rest n).warnings = [] := by
  induction rest generalizing n with
  | nil => rw [walk, Logged.warnings_bind_pure, warnings_trace]
  | cons s rest ih =>
    obtain ⟨hs, hr⟩ := List.forall_mem_cons.mp h
    cases hv : takesValue s with
    | true => exact warnings_walk_value verbose total hs hv rest n
    | false =>
      rw [warnings_walk_cons, warnings_step _ _ hs hv]
      exact List.flatMap_eq_nil_iff.mpr fun k _ => ih hr k

/-- A walk finds nothing along tokens of which one means nothing. It warns about the first of them
once for each way that leads there; no way goes on behind a token that takes a value. -/
theorem walk_of_isMeaningless (h : ∀ s ∈ first, isMeaningless s = false)
    (ht : isMeaningless t = true) (n : Located) :
    (walk verbose total (first ++ t :: more) n).value = [] ∧
      (walk verbose total (first ++ t :: more) n).warnings.length =
        if first.any takesValue then 0 else (ends first n).length := by
  induction first generalizing n with
  | nil =>
    rw [List.nil_append, warnings_walk_cons, walk, Logged.value_bind]
    exact step_of_isMeaningless ht _ _ _ n
  | cons s first ih =>
    obtain ⟨hs, hf⟩ := List.forall_mem_cons.mp h
    rw [List.cons_append, List.any_cons]
    cases hv : takesValue s with
    | true =>
      -- the walk ends at the value, in front of the token that means nothing
      rw [warnings_walk_value verbose total hs hv, Bool.true_or, if_pos rfl]
      cases s with
      | pseudoElement name =>
        rw [value_walk_pseudoElement]
        cases first <;> exact ⟨rfl, rfl⟩
      | _ => cases hv
    | false =>
      rw [value_walk_cons hv, warnings_walk_cons, warnings_step _ _ hs hv, List.length_flatMap, ends,
        List.length_flatMap, Bool.false_or]
      refine ⟨List.flatMap_eq_nil_iff.mpr fun k _ => (ih hf k).1, ?_⟩
      simp only [fun k => (ih hf k).2]
      split <;> simp

theorem warnings_tryCandidate (rest : List Token) (n : Located) :
    (tryCandidate verbose total rest n).warnings = (walk verbose total rest n).warnings := by
  rw [tryCandidate, Logged.warnings_bind]
  split <;> exact List.append_nil _

theorem warnings_seek (selector kind : String) (rest : List Token) (root : Located) :
    (seek verbose selector kind rest root).warnings =
      (joinEach (tryCandidate verbose (rest.length + 1) rest) (candidates kind root)).warnings := by
  have hr : ∀ (x : Logged (List Match)) (message : List Match → String),
      (x >>= fun found => report (message found) >>= fun _ => pure found).warnings =
        x.warnings := by
    intro x message
    rw [Logged.warnings_bind]
    exact List.append_nil _
  rw [seek]
  cases verbose with
  | false => exact hr _ _
  | true =>
    rw [if_pos rfl, Logged.warnings_bind]
    exact hr _ _

theorem warnings_execute (root : Located) (kind : String) (rest : List Token) :
    (execute verbose (.node root) (.className kind :: rest)).warnings =
      (root.postOrder.filter fun n => n.kind = kind).flatMap fun n =>
        (walk verbose (rest.length + 1) rest n).warnings := by
  have he : (execute verbose (.node root) (.className kind :: rest)).warnings =
      (seek verbose (render (.className kind :: rest)) kind rest root).warnings :=
    (Logged.warnings_bind_pure _ _).trans (Logged.warnings_bind_pure _ _)
  rw [he, warnings_seek, Logged.warnings_joinEach, candidates_eq]
  simp only [warnings_tryCandidate]

/-- A query warns about a token without a meaning and about nothing else: it writes no warning if all
tokens mean something. Otherwise it finds nothing, and warns as often as the tokens in front of the
first such token find something, but never if one of these takes a value. Nothing breaks it off where
no number is too long or infinite. -/
theorem warnings_are_exact (verbose verbose' : Bool) {given : Given} {root : Located}
    (hr : given.root? = some root) (kind : String) :
    (∀ rest, (∀ s ∈ rest, isBounded s = true) → (∀ s ∈ rest, isMeaningless s = false) →
      ∃ found, Completes verbose given (.className kind :: rest) found ∧
        (execute verbose given.subject (.className kind :: rest)).warnings = []) ∧
    ∀ first t more, (∀ s ∈ first ++ t :: more, isBounded s = true) →
      (∀ s ∈ first, isMeaningless s = false) → isMeaningless t = true →
      ∃ found, Completes verbose' given (.className kind :: first) found ∧
        Completes verbose given (.className kind :: first ++ t :: more) [] ∧
        (execute verbose given.subject (.className kind :: first ++ t :: more)).warnings.length =
          if first.any takesValue then 0 else found.length := by
  rw [Given.subject_of_root hr]
  refine ⟨fun rest hb h => ⟨_, completes_of_value hr hb (value_execute _ _ _ _), ?_⟩,
    fun first t more hb h ht => ?_⟩
  · rw [warnings_execute]
    exact List.flatMap_eq_nil_iff.mpr fun n _ => warnings_walk verbose _ h n
  · have hf : ∀ s ∈ first, isBounded s = true := fun s hs => hb s (List.mem_append_left _ hs)
    have hn : (execute verbose (.node root) (.className kind :: (first ++ t :: more))).value =
        .ok [] := by
      rw [value_execute]
      refine congrArg Except.ok (List.flatMap_eq_nil_iff.mpr fun n _ => ?_)
      exact (walk_of_isMeaningless verbose _ h ht n).1
    refine ⟨_, completes_of_value hr hf (value_execute _ _ _ _), completes_of_value hr hb hn, ?_⟩
    have hw : ∀ total n, (walk verbose total (first ++ t :: more) n).warnings.length =
        if first.any takesValue then 0 else (ends first n).length :=
      fun total n => (walk_of_isMeaningless verbose total h ht n).2
    rw [List.cons_append, warnings_execute, List.length_flatMap, List.length_flatMap]
    simp only [hw]
    split
    · simp
    · rename_i hn
      have hv : ∀ s ∈ first, takesValue s = false := by simpa using hn
      simp only [value_walk_ends hv, List.length_map]

def nestedGiven : Given :=
  ⟨"Node", none, some (.root nestedBlocks)⟩

/-- A link that there is not, from the four nodes of the outer block and the two of the inner one, and
behind it an index that is no integer. -/
theorem warnings_are_exact_nestedBlocks :
    nestedGiven.root? = some (.root nestedBlocks) ∧
      (∀ s ∈ [Token.combinator descendant] ++ .id "nowhere" :: [.pseudoClass "child" none],
        isBounded s = true) ∧
      (∀ s ∈ [Token.combinator descendant], isMeaningless s = false) ∧
      isMeaningless (.id "nowhere") = true ∧
      (execute false nestedGiven.subject
        [.className "block", .combinator descendant]).warnings = [] ∧
      Completes false nestedGiven
        [.className "block", .combinator descendant, .id "nowhere", .pseudoClass "child" none] [] ∧
      (execute false nestedGiven.subject
        [.className "block", .combinator descendant, .id "nowhere",
          .pseudoClass "child" none]).warnings.length = 6 := by
  have hb : ∀ s ∈ [Token.combinator descendant] ++ .id "nowhere" :: [.pseudoClass "child" none],
      isBounded s = true := by decide
  have h : ∀ s ∈ [Token.combinator descendant], isMeaningless s = false := by decide
  have hr : nestedGiven.root? = some (.root nestedBlocks) := rfl
  obtain ⟨hn, he⟩ := warnings_are_exact false false hr "block"
  obtain ⟨-, -, hn⟩ := hn [.combinator descendant] (by decide) h
  obtain ⟨found, ⟨-, hf⟩, hc, hw⟩ := he _ (.id "nowhere") [.pseudoClass "child" none] hb h rfl
  have hv := congrArg Logged.value hf
  rw [Given.subject_of_root hr, value_execute_ends (by decide)] at hv
  obtain rfl := Except.ok.inj hv
  exact ⟨hr, hb, h, rfl, hn, hc, hw⟩

end SyntaxQuery.Query
