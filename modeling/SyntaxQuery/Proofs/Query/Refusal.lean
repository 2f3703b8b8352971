import SyntaxQuery.Proofs.Query.Attempt
import SyntaxQuery.Proofs.Query.Search

namespace SyntaxQuery.Query

open SyntaxQuery.Journal SyntaxQuery.Number SyntaxQuery.Selector SyntaxQuery.Tree

/-- A value that is given as a tree: the name of its type, the root that it keeps, if it keeps one,
and the value itself, if it has a type and children. -/
structure Given where
  typeName : String
  kept : Option Located
  itself : Option Located

def Given.root? (given : Given) : Option Located :=
  given.kept <|> given.itself

def Given.subject (given : Given) : Subject :=
  match given.root? with
  | some root => .node root
  | none => .rootless given.typeName

theorem Given.subject_of_root {given : Given} {root : Located} (h : given.root? = some root) :
    given.subject = .node root := by
  rw [Given.subject, h]

/-- The first thing that a query lacks to start. -/
inductive Lacks (given : Given) (tokens : List Token) : Refusal → Prop where
  | tokens (ht : tokens = []) : Lacks given tokens (.emptySelector (render tokens))
  | root (ht : tokens ≠ []) (hr : given.root? = none) : Lacks given tokens (.noRoot given.typeName)
  | leadingClass (ht : tokens ≠ []) (hr : given.root? ≠ none)
      (hc : ∀ kind rest, tokens ≠ .className kind :: rest) :
      Lacks given tokens (.noLeadingClass (render tokens))

/-- Whether no infinite number is given as an index, and no integer that is too long to be read or
written. -/
def isBounded : Token → Bool
  | .property _ _ value _ => !isLong value
  | .pseudoClass _ (some (.real x)) => !x.isInfinite
  | .pseudoClass _ (some (.integer n)) => isShort n
  | .foreign _ _ (some (.integer n)) => isShort n
  | _ => true

namespace Attempt

def results? : List Match → Option (List Match)
  | [] => none
  | found => some found

def indexFault : Option Scalar → Fault
  | some (.real x) => if x.isInfinite then .infinite else .noInteger
  | some _ => .noInteger
  | none => .noNumber

def readInteger (argument : Option Scalar) : Attempt Int :=
  match indexOf? argument with
  | some i => pure i
  | none => raise (indexFault argument)

def compare (found : Option Scalar) (operator : Option String) (value : Option Scalar)
    (flag : Option String) : Attempt Bool :=
  if readsInteger found operator flag && isLong value then raise .tooLong
  else ofLogged (accepts found operator value flag)

def readIndex (name : String) (argument : Option Scalar) : Attempt (Option Int) :=
  (do return some (← readInteger argument)).rescue fun
    | .noNumber | .noInteger => some do
      ofLogged (note .warning ("Pseudo-class :" ++ name ++ " needs an integer argument, got " ++
        Scalar.quotedOption argument))
      return none
    | _ => none

def reach (n : Located) (found : Except Unknown (Option Located)) : Attempt (Option Located) := do
  let found ← lookUp found
  ask n
  return found

variable (go : Located → Attempt (Option (List Match)))

def continueAt : Option Located → Attempt (Option (List Match))
  | some n => go n
  | none => pure none

def combine (content : String) (n : Located) : Attempt (Option (List Match)) := do
  if content = descendant then
    let found ← gather (fun k => do return (← go k).getD []) n
    return results? found
  else if content = child then
    ask n
    let branches ← descendChildren go n
    return results? branches.flatten
  else if content = nextSibling then
    continueAt go (← reach n (n.linked "nextNamedSibling"))
  else if content = previousSibling then
    continueAt go (← reach n (n.linked "previousNamedSibling"))
  else
    ofLogged (note .warning ("Unsupported combinator: " ++ Text.quoted content))
    return none

def step (verbose more : Bool) (n : Located) : Token → Attempt (Option (List Match))
  | .className name => if n.kind = name then go n else pure none
  | .id name => do continueAt go (← reach n (n.linked name))
  | .property name operator value flag => do
    let found ← lookUp (n.property name)
    let accepted ← compare found operator value flag
    ofLogged (trace verbose
      ("Attribute " ++ name ++ if accepted then " matches" else " does not match"))
    if accepted then go n else return none
  | .combinator content => combine go content n
  | .pseudoClass name argument => do
    match ← readIndex name argument with
    | some index => continueAt go (← reach n (n.moved name index))
    | none => return none
  | .pseudoElement name => do
    match ← lookUp (n.property name) with
    | none => return none
    | some v =>
      if more then
        ofLogged (trace verbose ("Pseudo-element ::" ++ name ++
          " is followed by more tokens; a value cannot be matched further"))
        return none
      else return some [.value v]
  | .foreign _ _ kind => do
    ofLogged (note .warning ("The token type " ++ Scalar.quotedOption kind ++
      " didn't match any known type; aborting this branch"))
    return none

def endBranch : Fault → Option (Attempt (Option (List Match)))
  | .unknown e => some do
    ofLogged (note .warning (e.message ++ "; aborting this branch"))
    return none
  | _ => none

def walk (verbose : Bool) (total : Nat) : List Token → Located → Attempt (Option (List Match))
  | [], n => do
    ofLogged (trace verbose ("All " ++ toString total ++ " tokens matched, returning " ++ n.kind))
    return some [.node n]
  | token :: rest, n => do
    ofLogged (trace verbose ("Walking token " ++
      String.ofList (decimal (total - (rest.length + 1))) ++ ": " ++ token.describe ++ " on " ++
      n.kind))
    (step (walk verbose total rest) verbose (!rest.isEmpty) n token).rescue endBranch

def start (given : Given) (q : Prepared) : Attempt (Located × String × List Token) :=
  if q.tokens.isEmpty then raise (.refused (.emptySelector q.selector))
  else
    match given.root? with
    | none => raise (.refused (.noRoot given.typeName))
    | some root =>
      match q.tokens with
      | .className kind :: rest => pure (root, kind, rest)
      | _ => raise (.refused (.noLeadingClass q.selector))

def tryCandidate (verbose : Bool) (total : Nat) (rest : List Token) (n : Located) :
    Attempt (List Match) := do
  match ← walk verbose total rest n with
  | none => return []
  | some found =>
    if verbose then
      ofLogged (report ("Candidate matched with " ++ toString found.length ++ " results"))
    return found

def seek (verbose : Bool) (selector kind : String) (rest : List Token) (n : Located) :
    Attempt (List Match) := do
  let starts ← gather (fun n => pure (if n.kind = kind then [n] else [])) n
  if verbose then
    ofLogged (report ("Found " ++ toString starts.length ++ " candidates of type " ++
      Text.quoted kind))
  let found ← joinEach (tryCandidate verbose (rest.length + 1) rest) starts
  ofLogged (report ("Selector " ++ Text.quoted selector ++ " produced " ++ toString found.length ++
    " matches"))
  return found

def execute (verbose : Bool) (given : Given) (tokens : List Token) : Attempt (List Match) := do
  let q := Prepared.ofTokens tokens
  let (root, kind, rest) ← start given q
  seek verbose q.selector kind rest root

def Finds (result : Option (List Match)) (found : List Match) : Prop :=
  result = results? found

theorem results?_getD (found : List Match) : (results? found).getD [] = found := by
  cases found <;> rfl

theorem results?_toList_flatten (found : List Match) :
    (results? found).toList.flatten = found := by
  cases found with
  | nil => rfl
  | cons m found => simp [results?]

variable {go : Located → Attempt (Option (List Match))} {go' : Located → Logged (List Match)}

theorem does_continueAt (hgo : ∀ k, Does Finds (go k) (go' k)) (o : Option Located) :
    Does Finds (continueAt go o) (Query.continueAt go' o) := by
  cases o with
  | none => exact does_pure rfl
  | some k => exact hgo k

theorem reach_ok (n : Located) (o : Option Located) :
    (reach n (.ok o) >>= continueAt go) = (ask n >>= fun _ => continueAt go o) := rfl

theorem does_reach (hgo : ∀ k, Does Finds (go k) (go' k)) (n : Located)
    (found : Except Unknown (Option Located)) :
    Does Finds ((reach n found >>= continueAt go).rescue endBranch)
      (known found >>= Query.continueAt go') := by
  cases found with
  | error e => exact ⟨none, rfl, rfl, rfl⟩
  | ok o =>
    rw [reach_ok]
    exact ((does_continueAt hgo o).ask n).rescue endBranch

theorem does_branches (hgo : ∀ k, Does Finds (go k) (go' k)) (nodes : List Located) :
    Does (fun branches found => branches.flatten = found)
      (joinEach (fun c => do return (← go c).toList) nodes) (joinEach go' nodes) := by
  induction nodes with
  | nil => exact does_pure rfl
  | cons c nodes ih =>
    have hc : Does (fun branches found => branches.flatten = found)
        (do return (← go c).toList) (go' c) := by
      refine (hgo c).map fun result hr => ?_
      rw [hr, results?_toList_flatten]
    refine hc.bind fun branches hb => ih.bind fun more hm => does_pure ?_
    rw [List.flatten_append, hb, hm]

theorem does_combine (hgo : ∀ k, Does Finds (go k) (go' k)) (content : String) (n : Located) :
    Does Finds (combine go content n) (Query.combine go' content n) := by
  rw [combine, Query.combine]
  split
  · have hg : ∀ k, Does Eq (do return (← go k).getD [] : Attempt (List Match)) (go' k) := by
      intro k
      refine (hgo k).map fun result hr => ?_
      rw [hr, results?_getD]
    exact (does_gatherFrom hg _).map fun found hf => congrArg results? hf
  split
  · exact ((does_branches hgo n.children).map fun _ hb => congrArg results? hb).ask n
  split
  · exact (does_continueAt hgo n.nextNamed).ask n
  split
  · exact (does_continueAt hgo n.previousNamed).ask n
  · exact Does.note (does_pure rfl) _

theorem readIndex_eq (name : String) {argument : Option Scalar}
    (h : ∀ x, argument = some (.real x) → x.isInfinite = false) :
    readIndex name argument =
      match indexOf? argument with
      | some i => pure (some i)
      | none => do
        ofLogged (note .warning ("Pseudo-class :" ++ name ++
          " needs an integer argument, got " ++ Scalar.quotedOption argument))
        return none := by
  rw [readIndex, readInteger]
  cases hi : indexOf? argument with
  | some i => rfl
  | none =>
    cases argument with
    | none => rfl
    | some v =>
      cases v with
      | real x =>
        rw [indexFault, h x rfl]
        rfl
      | _ => rfl

/-- Behind the checks of a step nothing is left that can break it off. -/
theorem does_step (hgo : ∀ k, Does Finds (go k) (go' k)) {t : Token} (ht : isBounded t = true)
    (verbose more : Bool) (n : Located) :
    Does Finds ((step go verbose more n t).rescue endBranch) (Query.step verbose more go' n t) := by
  cases t with
  | className name =>
    refine Does.rescue ?_ _
    rw [step, Query.step]
    split
    · exact hgo n
    · exact does_pure rfl
  | id name => exact does_reach hgo n (n.linked name)
  | property name operator value flag =>
    rw [step, Query.step, test]
    -- the lookup is the only fault of a step; behind it both sides do the same
    cases n.property name with
    | error e => exact ⟨none, rfl, rfl, rfl⟩
    | ok found =>
      refine Does.rescue ?_ _
      have hc : compare found operator value flag =
          ofLogged (accepts found operator value flag) := by
        rw [compare, if_neg]
        simp [show isLong value = false by simpa [isBounded] using ht]
      simp only [lookUp_ok_bind, hc, bind_assoc, pure_bind]
      refine (does_ofLogged _).bind fun accepted ha => ?_
      subst ha
      refine Does.note ?_ _
      split
      · exact hgo n
      · exact does_pure rfl
  | combinator content => exact (does_combine hgo content n).rescue _
  | pseudoClass name argument =>
    have hb : ∀ x, argument = some (.real x) → x.isInfinite = false := by
      rintro x rfl
      simpa [isBounded] using ht
    rw [step, Query.step, readIndex_eq name hb]
    cases indexOf? argument with
    | none => exact ⟨none, rfl, rfl, rfl⟩
    | some i => exact does_reach hgo n (n.moved name i)
  | pseudoElement name =>
    rw [step, Query.step, extract]
    cases n.property name with
    | error e => exact ⟨none, rfl, rfl, rfl⟩
    | ok found =>
      cases found with
      | none => exact ⟨none, rfl, rfl, rfl⟩
      | some v =>
        cases more with
        | false => exact ⟨some [.value v], rfl, rfl, rfl⟩
        | true => exact Does.rescue (Does.note (does_pure rfl) _) endBranch
  | foreign serial text kind => exact ⟨none, rfl, rfl, rfl⟩

theorem does_walk (verbose : Bool) (total : Nat) {rest : List Token}
    (h : ∀ t ∈ rest, isBounded t = true) (n : Located) :
    Does Finds (walk verbose total rest n) (Query.walk verbose total rest n) := by
  induction rest generalizing n with
  | nil => exact Does.note (does_pure rfl) _
  | cons t rest ih =>
    obtain ⟨ht, hr⟩ := List.forall_mem_cons.mp h
    exact Does.note (does_step (ih hr) ht verbose (!rest.isEmpty) n) _

theorem does_tryCandidate (verbose : Bool) (total : Nat) {rest : List Token}
    (h : ∀ t ∈ rest, isBounded t = true) (n : Located) :
    Does Eq (tryCandidate verbose total rest n) (Query.tryCandidate verbose total rest n) := by
  refine (does_walk verbose total h n).bind fun result hr => ?_
  rw [hr]
  cases (Query.walk verbose total rest n).value with
  | nil => cases verbose <;> exact does_pure rfl
  | cons m found => cases verbose <;> exact ⟨m :: found, rfl, rfl, rfl⟩

theorem gather_candidates (kind : String) (n : Located) :
    (Tree.gather (fun k => pure (if k.kind = kind then [k] else [])) n : Logged (List Located)) =
      pure (candidates kind n) := by
  rw [gather_eq, candidates_eq]
  induction n.postOrder with
  | nil => rfl
  | cons k nodes ih =>
    rw [joinEach, ih, pure_bind, pure_bind, List.filter_cons]
    by_cases h : k.kind = kind <;> simp [h]

theorem does_candidates (kind : String) (n : Located) :
    Does Eq (gather (fun k => pure (if k.kind = kind then [k] else [])) n)
      (pure (candidates kind n)) := by
  rw [← gather_candidates]
  exact does_gatherFrom (fun _ => does_pure rfl) _

theorem does_report {x : Attempt (List Match)} {y : Logged (List Match)} (h : Does Eq x y)
    (message : List Match → String) :
    Does Eq (do
      let found ← x
      ofLogged (report (message found))
      return found) (do
      let found ← y
      report (message found)
      return found) := by
  refine h.bind fun found hf => ?_
  subst hf
  exact Does.note (does_pure rfl) _

theorem does_seek (verbose : Bool) (selector kind : String) {rest : List Token}
    (h : ∀ t ∈ rest, isBounded t = true) (n : Located) :
    Does Eq (seek verbose selector kind rest n) (Query.seek verbose selector kind rest n) := by
  have ht : Does Eq (joinEach (tryCandidate verbose (rest.length + 1) rest) (candidates kind n))
      (joinEach (Query.tryCandidate verbose (rest.length + 1) rest) (candidates kind n)) :=
    does_joinEach (does_tryCandidate verbose (rest.length + 1) h)
  rw [seek, Query.seek]
  refine (does_candidates kind n).silent ?_
  split
  · exact Does.note (does_report ht _) _
  · exact does_report ht _

theorem asked_bind {α β : Type} (x : Attempt α) (f : α → Attempt β) :
    ∃ more, (x >>= f).asked = x.asked ++ more := by
  cases h : x.outcome with
  | ok a => exact ⟨_, congrArg Attempt.asked (bind_of_ok h f)⟩
  | error e => exact ⟨[], by rw [bind_of_error h, List.append_nil]⟩

theorem asked_seek (verbose : Bool) (selector kind : String) (rest : List Token) (n : Located) :
    ∃ more, (seek verbose selector kind rest n).asked = n :: more := by
  have hg : ∀ f : Located → Attempt (List Located), ∃ more, (gather f n).asked = n :: more := by
    intro f
    rw [gather, gatherFrom]
    exact asked_bind (ask n) _
  rw [seek]
  obtain ⟨first, hf⟩ := hg fun n => pure (if n.kind = kind then [n] else [])
  obtain ⟨more, hm⟩ := asked_bind (gather (fun n => pure (if n.kind = kind then [n] else [])) n) _
  rw [hm, hf]
  exact ⟨first ++ more, rfl⟩

end Attempt

theorem lacks_or_starts (given : Given) (tokens : List Token) :
    (∃ e, Lacks given tokens e) ∨
      ∃ root kind rest, given.root? = some root ∧ tokens = .className kind :: rest := by
  by_cases ht : tokens = []
  · exact .inl ⟨_, .tokens ht⟩
  cases hr : given.root? with
  | none => exact .inl ⟨_, .root ht hr⟩
  | some root =>
    by_cases hc : ∃ kind rest, tokens = .className kind :: rest
    · obtain ⟨kind, rest, hc⟩ := hc
      exact .inr ⟨root, kind, rest, rfl, hc⟩
    · refine .inl ⟨_, .leadingClass ht (by rw [hr]; exact Option.some_ne_none root) ?_⟩
      exact fun kind rest h => hc ⟨kind, rest, h⟩

theorem exists_lacks_iff {given : Given} {tokens : List Token} :
    (∃ e, Lacks given tokens e) ↔
      tokens = [] ∨ given.root? = none ∨ ∀ kind rest, tokens ≠ .className kind :: rest := by
  constructor
  · rintro ⟨e, ht | ⟨-, hr⟩ | ⟨-, -, hc⟩⟩
    · exact .inl ht
    · exact .inr (.inl hr)
    · exact .inr (.inr hc)
  · intro h
    obtain hl | ⟨root, kind, rest, hr, rfl⟩ := lacks_or_starts given tokens
    · exact hl
    · obtain ht | hn | hc := h
      · cases ht
      · rw [hr] at hn
        cases hn
      · exact (hc kind rest rfl).elim

theorem Lacks.attempt {given : Given} {tokens : List Token} {e : Refusal}
    (h : Lacks given tokens e) (verbose : Bool) :
    Attempt.execute verbose given tokens = .raise (.refused e) := by
  have hs : Attempt.start given (.ofTokens tokens) = .raise (.refused e) := by
    cases h with
    | tokens ht =>
      subst ht
      rfl
    | root ht hr =>
      obtain ⟨t, rest, rfl⟩ := List.exists_cons_of_ne_nil ht
      rw [Attempt.start, hr]
      rfl
    | leadingClass ht hr hc =>
      obtain ⟨t, rest, rfl⟩ := List.exists_cons_of_ne_nil ht
      obtain ⟨root, hr⟩ := Option.ne_none_iff_exists'.mp hr
      rw [Attempt.start, hr]
      cases t with
      | className kind => exact (hc kind rest rfl).elim
      | _ => rfl
  rw [Attempt.execute, hs]
  rfl

theorem Lacks.execute {given : Given} {tokens : List Token} {e : Refusal}
    (h : Lacks given tokens e) (verbose : Bool) :
    execute verbose given.subject tokens = pure (.error (.refused e)) := by
  cases h with
  | tokens ht =>
    subst ht
    rfl
  | root ht hr =>
    obtain ⟨t, rest, rfl⟩ := List.exists_cons_of_ne_nil ht
    rw [Given.subject, hr]
    rfl
  | leadingClass ht hr hc =>
    obtain ⟨t, rest, rfl⟩ := List.exists_cons_of_ne_nil ht
    obtain ⟨root, hr⟩ := Option.ne_none_iff_exists'.mp hr
    rw [Given.subject_of_root hr]
    cases t with
    | className kind => exact (hc kind rest rfl).elim
    | _ => rfl

theorem Lacks.unique {given : Given} {tokens : List Token} {e e' : Refusal}
    (h : Lacks given tokens e) (h' : Lacks given tokens e') : e = e' := by
  have he := (h.attempt false).symm.trans (h'.attempt false)
  cases he
  rfl

theorem Lacks.error_iff {given : Given} {tokens : List Token} {e : Refusal}
    (h : Lacks given tokens e) {F : Type} (α : Type) (wrap : Refusal → F) (fault : F) :
    (.error (wrap e) : Except F α) = .error fault ↔
      ∃ e', fault = wrap e' ∧ Lacks given tokens e' := by
  constructor
  · rintro he
    cases he
    exact ⟨e, rfl, h⟩
  · rintro ⟨e', rfl, h'⟩
    rw [h.unique h']

theorem ok_iff_lacks {given : Given} {tokens : List Token} (h : ∀ e, ¬ Lacks given tokens e)
    {F α : Type} (a : α) (wrap : Refusal → F) (fault : F) :
    (.ok a : Except F α) = .error fault ↔ ∃ e, fault = wrap e ∧ Lacks given tokens e := by
  constructor
  · intro he
    cases he
  · rintro ⟨e, -, hl⟩
    exact absurd hl (h e)

theorem not_lacks {given : Given} {root : Located} (hr : given.root? = some root) (kind : String)
    (rest : List Token) (e : Refusal) : ¬ Lacks given (.className kind :: rest) e := by
  rintro (ht | ⟨-, hn⟩ | ⟨-, -, hc⟩)
  · cases ht
  · rw [hr] at hn
    cases hn
  · exact hc kind rest rfl

/-- A query goes through to the end: nothing breaks it off, and it finds and writes the same. -/
def Completes (verbose : Bool) (given : Given) (tokens : List Token) (found : List Match) : Prop :=
  (Attempt.execute verbose given tokens).outcome = .ok found ∧
    execute verbose given.subject tokens =
      ⟨.ok found, (Attempt.execute verbose given tokens).entries⟩

theorem attempt_of_starts {given : Given} {root : Located} (hr : given.root? = some root)
    (kind : String) {rest : List Token} (h : ∀ t ∈ rest, isBounded t = true) (verbose : Bool) :
    ∃ found more, Completes verbose given (.className kind :: rest) found ∧
      (Attempt.execute verbose given (.className kind :: rest)).asked = root :: more := by
  let selector := render (.className kind :: rest)
  have ha : Attempt.execute verbose given (.className kind :: rest) =
      Attempt.seek verbose selector kind rest root := by
    have hs : Attempt.start given (.ofTokens (.className kind :: rest)) =
        pure (root, kind, rest) := by
      simp only [Attempt.start, Prepared.ofTokens, List.isEmpty_cons, Bool.false_eq_true,
        ite_false, hr]
    rw [Attempt.execute, hs]
    rfl
  obtain ⟨found, ho, hv, he⟩ := Attempt.does_seek verbose selector kind h root
  obtain ⟨more, hm⟩ := Attempt.asked_seek verbose selector kind rest root
  simp only [Completes, ha, Given.subject_of_root hr]
  refine ⟨found, more, ⟨ho, Logged.eq_of ?_ ?_⟩, hm⟩
  · rw [hv]
    rfl
  · rw [he]
    show ((seek verbose selector kind rest root).entries ++ []) ++ [] = _
    rw [List.append_nil, List.append_nil]

theorem completes_of_value {given : Given} {root : Located} (hr : given.root? = some root)
    {verbose : Bool} {kind : String} {rest : List Token} {found : List Match}
    (hb : ∀ t ∈ rest, isBounded t = true)
    (h : (execute verbose (.node root) (.className kind :: rest)).value = .ok found) :
    Completes verbose given (.className kind :: rest) found := by
  obtain ⟨found', -, ⟨ho, he⟩, -⟩ := attempt_of_starts hr kind hb verbose
  have hv := congrArg Logged.value he
  rw [Given.subject_of_root hr, h] at hv
  obtain rfl := Except.ok.inj hv
  exact ⟨ho, he⟩

/-- A query lacks something exactly if it has no tokens, no root or no leading class, and what it
lacks first, in this order, is all that can break it off: whatever its tokens name, no other fault
gets out of a branch. It is refused before it looks at any node; a query that lacks nothing looks
at its root and gives results. -/
theorem execute_breaks_off_iff_lacks (verbose : Bool) (given : Given) {tokens : List Token}
    (h : ∀ t ∈ tokens, isBounded t = true) :
    ((∃ e, Lacks given tokens e) ↔
      tokens = [] ∨ given.root? = none ∨ ∀ kind rest, tokens ≠ .className kind :: rest) ∧
    (∀ e, (execute verbose given.subject tokens).value = .error e ↔
      ∃ e', e = .refused e' ∧ Lacks given tokens e') ∧
    (∀ fault, (Attempt.execute verbose given tokens).outcome = .error fault ↔
      ∃ e, fault = .refused e ∧ Lacks given tokens e) ∧
    (∀ e, Lacks given tokens e → (Attempt.execute verbose given tokens).asked = []) ∧
    ((∀ e, ¬ Lacks given tokens e) → ∃ root found more, given.root? = some root ∧
      (Attempt.execute verbose given tokens).outcome = .ok found ∧
      (Attempt.execute verbose given tokens).asked = root :: more ∧
      (execute verbose given.subject tokens).value = .ok found) ∧
    (Attempt.execute verbose given tokens).entries =
      (execute verbose given.subject tokens).entries := by
  refine ⟨exists_lacks_iff, ?_⟩
  obtain ⟨e, hl⟩ | ⟨root, kind, rest, hr, rfl⟩ := lacks_or_starts given tokens
  · rw [hl.attempt, hl.execute]
    exact ⟨hl.error_iff _ Failure.refused, hl.error_iff _ Fault.refused, fun _ _ => rfl,
      fun hn => absurd hl (hn e), rfl⟩
  · have hn := not_lacks hr kind rest
    obtain ⟨found, more, ⟨ho, he⟩, ha⟩ :=
      attempt_of_starts hr kind (List.forall_mem_cons.mp h).2 verbose
    rw [he, ho, ha]
    exact ⟨ok_iff_lacks hn found Failure.refused, ok_iff_lacks hn found Fault.refused,
      fun e hl => absurd hl (hn e), fun _ => ⟨root, found, more, hr, rfl, rfl, rfl⟩, rfl⟩

def misleadingTokens : List Token :=
  [.className "block", .id "nowhere", .pseudoClass "child" (some (.real .nan))]

theorem misleadingTokens_break_nothing_off :
    (∀ t ∈ misleadingTokens, isBounded t = true) ∧
      ∃ found, (Attempt.execute false ⟨"Node", none, some (.root default)⟩
        misleadingTokens).outcome = .ok found := by
  have h : ∀ t ∈ misleadingTokens, isBounded t = true := by decide
  obtain ⟨-, -, -, -, hg, -⟩ :=
    execute_breaks_off_iff_lacks false ⟨"Node", none, some (.root default)⟩ h
  obtain ⟨_, found, _, -, ho, -⟩ := hg (not_lacks rfl _ _)
  exact ⟨h, found, ho⟩

end SyntaxQuery.Query
