import Mathlib.Tactic.SplitIfs
import SyntaxQuery.Proofs.Journal.Entries
import SyntaxQuery.Proofs.Query.Search
import SyntaxQuery.Proofs.Selector.InOrder
import SyntaxQuery.Proofs.Selector.RoundTrip

namespace SyntaxQuery.Query

open SyntaxQuery.Journal SyntaxQuery.Number SyntaxQuery.Selector SyntaxQuery.Text
open SyntaxQuery.Tree

abbrev Check := Option Scalar → Option String → Option Scalar → Option String → Logged Bool

def IsOrderly (operator : Option String) (literal : Option Scalar) (flag : Option String) : Prop :=
  (∀ o ∈ operator, o ∈ operators ∧ ∃ text, literal = some (.text text)) ∧
    ∀ f ∈ flag, f ∈ caseFlags

section

variable (check : Check) (verbose : Bool)

def testWith (n : Located) (name : String) (operator : Option String) (value : Option Scalar)
    (flag : Option String) : Logged Bool :=
  match n.property name with
  | .error e => do
    note .warning (e.message ++ "; aborting this branch")
    return false
  | .ok found => do
    let accepted ← check found operator value flag
    trace verbose
      ("Attribute " ++ name ++ if accepted then " matches" else " does not match")
    return accepted

def stepWith (more : Bool) (go : Located → Logged (List Match)) (n : Located) :
    Token → Logged (List Match)
  | .property name operator value flag => do
    if ← testWith check verbose n name operator value flag then go n else return []
  | t => step verbose more go n t

def walkWith (total : Nat) : List Token → Located → Logged (List Match)
  | [], n => walk verbose total [] n
  | token :: rest, n => do
    trace verbose ("Walking token " ++ String.ofList (decimal (total - (rest.length + 1))) ++ ": " ++
      token.describe ++ " on " ++ n.kind)
    stepWith check verbose (!rest.isEmpty) (walkWith total rest) n token

def tryCandidateWith (total : Nat) (rest : List Token) (n : Located) : Logged (List Match) := do
  let found ← walkWith check verbose total rest n
  if verbose && !found.isEmpty then
    report ("Candidate matched with " ++ toString found.length ++ " results")
  return found

def seekWith (selector kind : String) (rest : List Token) (n : Located) :
    Logged (List Match) := do
  let starts := candidates kind n
  if verbose then
    report ("Found " ++ toString starts.length ++ " candidates of type " ++ quoted kind)
  let found ← joinEach (tryCandidateWith check verbose (rest.length + 1) rest) starts
  report ("Selector " ++ quoted selector ++ " produced " ++ toString found.length ++ " matches")
  return found

def runWith (subject : Subject) (q : Prepared) : Logged (Except Refusal (List Match)) :=
  match q.tokens, subject with
  | .className kind :: rest, .node n => do
    return .ok (← seekWith check verbose q.selector kind rest n)
  | _, _ => q.run verbose subject

def selectWith (subject : Subject) (selector : String) :
    Logged (Except Failure (List Match)) := do
  match ← Prepared.ofText selector with
  | .error e => return .error (.malformed e)
  | .ok q => return (← runWith check verbose subject q).mapError .refused

end

variable {check : Check} {verbose : Bool}

def Agrees (check : Check) : Prop :=
  ∀ value operator literal flag, IsOrderly operator literal flag →
    check value operator literal flag = accepts value operator literal flag

theorem isOrderly_of_inOrder {name : String} {operator flag : Option String}
    {value : Option Scalar} (h : (Token.property name operator value flag).InOrder) :
    IsOrderly operator value flag := by
  cases h with
  | presence => exact ⟨nofun, nofun⟩
  | comparison _ text ho hf =>
    exact ⟨fun o he => ⟨Option.mem_some.mp he ▸ ho, text, rfl⟩, hf⟩

theorem stepWith_eq (hc : Agrees check) {t : Token} (ht : t.InOrder) (more : Bool)
    (go : Located → Logged (List Match)) (n : Located) :
    stepWith check verbose more go n t = step verbose more go n t := by
  cases t with
  | property name operator value flag =>
    have hr : testWith check verbose n name operator value flag =
        test verbose n name operator value flag := by
      rw [testWith, test]
      cases n.property name with
      | error e => rfl
      | ok found => simp only [hc found operator value flag (isOrderly_of_inOrder ht)]
    rw [stepWith, step, hr]
  | _ => rfl

theorem walkWith_eq (hc : Agrees check) (verbose : Bool) (total : Nat) {rest : List Token}
    (h : ∀ t ∈ rest, t.InOrder) : walkWith check verbose total rest = walk verbose total rest := by
  induction rest with
  | nil => rfl
  | cons t rest ih =>
    obtain ⟨ht, hr⟩ := List.forall_mem_cons.mp h
    funext n
    rw [walkWith, walk, ih hr, stepWith_eq hc ht]

theorem runWith_eq (hc : Agrees check) (verbose : Bool) {q : Prepared} (h : ∀ t ∈ q.tokens, t.InOrder)
    (subject : Subject) : runWith check verbose subject q = q.run verbose subject := by
  obtain ⟨selector, tokens⟩ := q
  unfold runWith
  split
  · rename_i kind rest n ht
    obtain rfl : tokens = .className kind :: rest := ht
    have hw := walkWith_eq hc verbose (rest.length + 1) (List.forall_mem_cons.mp h).2
    have hs : tryCandidateWith check verbose (rest.length + 1) rest =
        tryCandidate verbose (rest.length + 1) rest := by
      funext k
      rw [tryCandidateWith, tryCandidate, hw]
    rw [seekWith, hs]
    rfl
  · rfl

theorem selectWith_eq (hc : Agrees check) (subject : Subject) (selector : String) :
    selectWith check verbose subject selector = select verbose subject selector := by
  rw [selectWith, select, Prepared.ofText, tokenize]
  cases hp : parse selector with
  | error e => rfl
  | ok tokens =>
    have hr := runWith_eq (q := ⟨selector, tokens⟩) hc verbose (inOrder_of_parse hp) subject
    simp only [pure_bind, bind_assoc, Except.map, hr]

/-- What a run of a selector text can write: notes on its way, and warnings of names that mean nothing,
of an index that is no integer, and of the column combinator. -/
inductive Notice : Entry → Prop where
  | debug (source message : String) : Notice ⟨.debug, source, message⟩
  | unknown (e : Unknown) :
      Notice ⟨.warning, "tree_selector.selector.walker", e.message ++ "; aborting this branch"⟩
  | noInteger (name : String) (argument : Option Scalar) :
      Notice ⟨.warning, "tree_selector.selector.walker",
        "Pseudo-class :" ++ name ++ " needs an integer argument, got " ++
          Scalar.quotedOption argument⟩
  | column :
      Notice ⟨.warning, "tree_selector.selector.walker",
        "Unsupported combinator: " ++ quoted Selector.column⟩

theorem writes_trace (message : String) : (trace verbose message).Writes Notice :=
  Logged.writes_writeIf (.debug _ message)

theorem writes_report (message : String) : (report message).Writes Notice :=
  Logged.writes_write (.debug _ message)

theorem writes_known {α : Type} (found : Except Unknown (Option α)) :
    (known found).Writes Notice := by
  cases found with
  | ok o => exact Logged.writes_pure o
  | error e => exact (Logged.writes_write (.unknown e)).bind (Logged.writes_pure none)

theorem writes_accepts {operator flag : Option String} {literal : Option Scalar}
    (h : IsOrderly operator literal flag) (value : Option Scalar) :
    (accepts value operator literal flag).Writes Notice := by
  cases operator with
  | none => exact Logged.writes_pure _
  | some text =>
    obtain ⟨ho, -⟩ := h.1 text rfl
    simp only [operators, List.mem_cons, List.not_mem_nil, or_false] at ho
    obtain rfl | rfl | rfl | rfl | rfl | rfl := ho <;> exact Logged.writes_pure _

theorem writes_test {operator flag : Option String} {value : Option Scalar}
    (h : IsOrderly operator value flag) (n : Located) (name : String) :
    (test verbose n name operator value flag).Writes Notice := by
  rw [test]
  split
  · exact (Logged.writes_write (.unknown _)).bind (Logged.writes_pure false)
  · exact (writes_accepts h _).bind ((writes_trace _).bind (Logged.writes_pure _))

section

variable {go : Located → Logged (List Match)} (hgo : ∀ k, (go k).Writes Notice)
include hgo

theorem writes_continueAt (o : Option Located) : (continueAt go o).Writes Notice := by
  cases o with
  | none => exact Logged.writes_pure []
  | some k => exact hgo k

theorem writes_combine {content : String}
    (h : content ∈ [descendant, Selector.child, nextSibling, previousSibling, column])
    (n : Located) : (combine go content n).Writes Notice := by
  rw [combine]
  split_ifs with hd hc hn hp
  · exact Logged.writes_gather fun k _ => hgo k
  · exact Logged.writes_joinEach fun k _ => hgo k
  · exact writes_continueAt hgo _
  · exact writes_continueAt hgo _
  · simp only [List.mem_cons, hd, hc, hn, hp, List.not_mem_nil, or_false, false_or] at h
    subst h
    exact (Logged.writes_write .column).bind (Logged.writes_pure [])

theorem writes_step {t : Token} (ht : t.InOrder) (more : Bool) (n : Located) :
    (step verbose more go n t).Writes Notice := by
  cases t with
  | className name =>
    rw [step]
    split
    · exact hgo n
    · exact Logged.writes_pure []
  | id name => exact (writes_known _).bind (writes_continueAt hgo _)
  | property name operator value flag =>
    refine (writes_test (isOrderly_of_inOrder ht) n name).bind ?_
    split
    · exact hgo n
    · exact Logged.writes_pure []
  | combinator content =>
    cases ht with
    | combinator h => exact writes_combine hgo h n
  | pseudoClass name argument =>
    rw [step]
    split
    · exact (writes_known _).bind (writes_continueAt hgo _)
    · exact (Logged.writes_write (.noInteger _ _)).bind (Logged.writes_pure [])
  | pseudoElement name =>
    refine (writes_known _).bind ?_
    split
    · exact Logged.writes_pure []
    · split
      · exact (writes_trace _).bind (Logged.writes_pure [])
      · exact Logged.writes_pure _
  | foreign serial text kind => cases ht

end

theorem writes_walk (total : Nat) {rest : List Token} (h : ∀ t ∈ rest, t.InOrder) (n : Located) :
    (walk verbose total rest n).Writes Notice := by
  induction rest generalizing n with
  | nil => exact (writes_trace _).bind (Logged.writes_pure _)
  | cons t rest ih =>
    obtain ⟨ht, hr⟩ := List.forall_mem_cons.mp h
    exact (writes_trace _).bind (writes_step (ih hr) ht _ n)

theorem writes_tryCandidate (total : Nat) {rest : List Token} (h : ∀ t ∈ rest, t.InOrder)
    (n : Located) : (tryCandidate verbose total rest n).Writes Notice := by
  refine (writes_walk total h n).bind ?_
  split
  · exact (writes_report _).bind (Logged.writes_pure _)
  · exact Logged.writes_pure _

theorem writes_seek (selector kind : String) {rest : List Token} (h : ∀ t ∈ rest, t.InOrder)
    (n : Located) : (seek verbose selector kind rest n).Writes Notice := by
  have hj : (joinEach (tryCandidate verbose (rest.length + 1) rest)
      (candidates kind n)).Writes Notice :=
    Logged.writes_joinEach fun k _ => writes_tryCandidate _ h k
  have hr : ∀ found : List Match,
      (report ("Selector " ++ quoted selector ++ " produced " ++ toString found.length ++
        " matches") >>= fun _ => pure found).Writes Notice :=
    fun found => (writes_report _).bind (Logged.writes_pure found)
  rw [seek]
  split
  · exact (writes_report _).bind (hj.bind (hr _))
  · exact hj.bind (hr _)

theorem writes_run {q : Prepared} (h : ∀ t ∈ q.tokens, t.InOrder) (subject : Subject) :
    (q.run verbose subject).Writes Notice := by
  unfold Prepared.run
  split
  · exact Logged.writes_pure _
  · exact Logged.writes_pure _
  · rename_i ht
    rw [ht] at h
    exact (writes_seek _ _ (List.forall_mem_cons.mp h).2 _).bind (Logged.writes_pure _)
  · exact Logged.writes_pure _

theorem writes_select (subject : Subject) (selector : String) :
    (select verbose subject selector).Writes Notice := by
  rw [select, Prepared.ofText, tokenize]
  cases hp : parse selector with
  | error e => exact Logged.writes_pure _
  | ok tokens =>
    refine Logged.Writes.bind ?_ ?_
    · exact (Logged.Writes.bind (Logged.writes_write (.debug _ _)) (Logged.writes_pure _)).bind
        (Logged.writes_pure _)
    · exact (writes_run (inOrder_of_parse hp) subject).bind (Logged.writes_pure _)

theorem append_ne_append {a b : String} (n : Nat) (ha : n ≤ a.toList.length)
    (hb : n ≤ b.toList.length) (h : a.toList.take n ≠ b.toList.take n) (s t : String) :
    a ++ s ≠ b ++ t := by
  intro he
  have ht := congrArg (fun text : String => text.toList.take n) he
  simp only [String.toList_append, List.take_append_of_le_length ha,
    List.take_append_of_le_length hb] at ht
  exact h ht

theorem Notice.warning {e : Entry} (h : Notice e) (hw : e.level = .warning) :
    (∀ rest, e.message ≠ "The token type " ++ rest) ∧
      (∀ rest, e.message ≠ "Unrecognized attribute operator: " ++ rest) ∧
      ∀ shown, e.message = "Unsupported combinator: " ++ shown → shown = quoted Selector.column := by
  cases h with
  | debug source message => cases hw
  | unknown e =>
    simp only [Unknown.message, String.append_assoc]
    refine ⟨fun rest => ?_, fun rest => ?_, fun shown he => absurd he ?_⟩ <;>
      exact append_ne_append 3 (by decide) (by decide) (by decide) _ _
  | noInteger name argument =>
    simp only [String.append_assoc]
    refine ⟨fun rest => ?_, fun rest => ?_, fun shown he => absurd he ?_⟩ <;>
      exact append_ne_append 3 (by decide) (by decide) (by decide) _ _
  | column =>
    refine ⟨fun rest => ?_, fun rest => ?_, fun shown he => ?_⟩
    · exact append_ne_append 3 (by decide) (by decide) (by decide) _ _
    · exact append_ne_append 3 (by decide) (by decide) (by decide) _ _
    · exact (String.append_right_inj _).mp he.symm

def leaf (kind : String) : Located :=
  .root (.mk { (default : Label) with kind } [])

theorem parse_column :
    parse ".a || .b" = .ok [.className "a", .combinator column, .className "b"] := by
  have hw : WellPlaced [.className "a", .combinator column, .className "b"] :=
    ⟨by decide, by decide, by decide⟩
  have hp : ∀ t ∈ [Token.className "a", .combinator column, .className "b"], IsPlain t := by
    simp only [List.forall_mem_cons]
    exact ⟨.className (by decide), .combinator (by decide), .className (by decide),
      fun t ht => absurd ht List.not_mem_nil⟩
  have hr : render [.className "a", .combinator column, .className "b"] = ".a || .b" := by
    decide
  rw [← hr]
  exact parse_render hw hp

theorem column_reported :
    (⟨.warning, "tree_selector.selector.walker", "Unsupported combinator: " ++ quoted column⟩ : Entry) ∈
      (select false (.node (leaf "a")) ".a || .b").entries := by
  have hc : candidates "a" (leaf "a") = [leaf "a"] := by
    rw [candidates_eq]
    rfl
  have hw : (walk false 3 [.combinator column, .className "b"] (leaf "a")).entries =
      [⟨.warning, "tree_selector.selector.walker", "Unsupported combinator: " ++ quoted column⟩] :=
    rfl
  rw [select, Prepared.ofText, tokenize, parse_column]
  simp [Prepared.run, seek, hc, joinEach, tryCandidate, hw, Except.map]

/-- A selector text never leads a run astray: all that is written are notes and warnings of names and
indices, none of an unknown kind of token or operator, and of the combinators the column alone is
warned of, which happens. No value is tested with an operator but without a text, or with another
flag than those for the case of letters: whatever is put in the place of such tests, the run is the
same. -/
theorem select_stays_in_order :
    (∀ verbose subject selector,
      (∀ e ∈ (select verbose subject selector).entries, Notice e ∧ (e.level = .warning →
        (∀ rest, e.message ≠ "The token type " ++ rest) ∧
        (∀ rest, e.message ≠ "Unrecognized attribute operator: " ++ rest) ∧
        ∀ shown, e.message = "Unsupported combinator: " ++ shown → shown = quoted column)) ∧
      ∀ check, Agrees check →
        selectWith check verbose subject selector = select verbose subject selector) ∧
    ∃ subject selector,
      (⟨.warning, "tree_selector.selector.walker", "Unsupported combinator: " ++ quoted column⟩ :
        Entry) ∈ (select false subject selector).entries := by
  refine ⟨fun verbose subject selector => ⟨fun e he => ?_, fun check hc => ?_⟩, ?_⟩
  · have hn := writes_select subject selector e he
    exact ⟨hn, hn.warning⟩
  · exact selectWith_eq hc subject selector
  · exact ⟨_, _, column_reported⟩

end SyntaxQuery.Query
