import Mathlib.Tactic.SplitIfs
import SyntaxQuery.Proofs.Journal.Entries
import SyntaxQuery.Proofs.Query.Refusal

namespace SyntaxQuery.Query

open SyntaxQuery.Journal SyntaxQuery.Selector SyntaxQuery.Text SyntaxQuery.Tree

theorem echoes_trace (message : String) : (trace false message).Echoes (trace true message) :=
  Logged.echoes_writeIf _ message

theorem echoes_test (n : Located) (name : String) (operator : Option String)
    (value : Option Scalar) (flag : Option String) :
    (test false n name operator value flag).Echoes (test true n name operator value flag) := by
  rw [test, test]
  split
  · exact .refl _
  · exact (Logged.Echoes.refl _).bind fun _ => (echoes_trace _).bind fun _ => .refl _

theorem echoes_extract (n : Located) (name : String) (more : Bool) :
    (extract false n name more).Echoes (extract true n name more) := by
  refine (Logged.Echoes.refl (known (n.property name))).bind fun found => ?_
  cases found with
  | none => exact .refl _
  | some v =>
    cases more with
    | true => exact (echoes_trace _).bind fun _ => .refl _
    | false => exact .refl _

section

variable {go go' : Located → Logged (List Match)} (hgo : ∀ k, (go k).Echoes (go' k))
include hgo

theorem echoes_continueAt (o : Option Located) :
    (continueAt go o).Echoes (continueAt go' o) := by
  cases o with
  | none => exact .refl _
  | some k => exact hgo k

theorem echoes_combine (content : String) (n : Located) :
    (combine go content n).Echoes (combine go' content n) := by
  rw [combine, combine]
  split_ifs
  · exact Logged.echoes_gather hgo n
  · exact Logged.echoes_joinEach hgo n.children
  · exact echoes_continueAt hgo _
  · exact echoes_continueAt hgo _
  · exact .refl _

theorem echoes_step (more : Bool) (n : Located) (t : Token) :
    (step false more go n t).Echoes (step true more go' n t) := by
  cases t with
  | className name =>
    rw [step, step]
    split
    · exact hgo n
    · exact .refl _
  | id name => exact (Logged.Echoes.refl _).bind (echoes_continueAt hgo)
  | property name operator value flag =>
    refine (echoes_test n name operator value flag).bind fun accepted => ?_
    cases accepted with
    | true => exact hgo n
    | false => exact .refl _
  | combinator content => exact echoes_combine hgo content n
  | pseudoClass name argument =>
    rw [step, step]
    split
    · exact (Logged.Echoes.refl _).bind (echoes_continueAt hgo)
    · exact .refl _
  | pseudoElement name => exact echoes_extract n name more
  | foreign serial text kind => exact .refl _

end

theorem echoes_walk (total : Nat) (rest : List Token) (n : Located) :
    (walk false total rest n).Echoes (walk true total rest n) := by
  induction rest generalizing n with
  | nil => exact (echoes_trace _).bind fun _ => .refl _
  | cons t rest ih => exact (echoes_trace _).bind fun _ => echoes_step ih _ n t

theorem echoes_report {α : Type} {x y : Logged α} (h : x.Echoes y) (message : String) :
    x.Echoes (report message >>= fun _ => y) :=
  ⟨h.1, .added rfl h.2⟩

theorem echoes_tryCandidate (total : Nat) (rest : List Token) (n : Located) :
    (tryCandidate false total rest n).Echoes (tryCandidate true total rest n) := by
  refine (echoes_walk total rest n).bind fun found => ?_
  cases found with
  | nil => exact .refl _
  | cons m found => exact echoes_report (.refl _) _

theorem echoes_seek (selector kind : String) (rest : List Token) (n : Located) :
    (seek false selector kind rest n).Echoes (seek true selector kind rest n) := by
  have hj := Logged.echoes_joinEach (echoes_tryCandidate (rest.length + 1) rest) (candidates kind n)
  exact echoes_report (hj.bind fun _ => .refl _) _

theorem echoes_run (subject : Subject) (q : Prepared) :
    (q.run false subject).Echoes (q.run true subject) := by
  unfold Prepared.run
  split
  · exact .refl _
  · exact .refl _
  · exact (echoes_seek _ _ _ _).bind fun _ => .refl _
  · exact .refl _

theorem echoes_execute (subject : Subject) (tokens : List Token) :
    (execute false subject tokens).Echoes (execute true subject tokens) :=
  (echoes_run subject (.ofTokens tokens)).bind fun _ => .refl _

theorem echoes_select (subject : Subject) (selector : String) :
    (select false subject selector).Echoes (select true subject selector) := by
  refine (Logged.Echoes.refl (Prepared.ofText selector)).bind fun prepared => ?_
  cases prepared with
  | error e => exact .refl _
  | ok q => exact (echoes_run subject q).bind fun _ => .refl _

namespace Attempt

variable {α β : Type}

/-- The second of two attempts looks at the same nodes, gives the same or breaks off in the same way,
and writes notes in addition. -/
structure Echoes (quiet full : Attempt α) : Prop where
  asked : full.asked = quiet.asked
  outcome : full.outcome = quiet.outcome
  entries : Annotates quiet.entries full.entries

theorem Echoes.refl (x : Attempt α) : Echoes x x :=
  ⟨rfl, rfl, .refl _⟩

theorem echoes_ofLogged {x y : Logged α} (h : x.Echoes y) : Echoes (ofLogged x) (ofLogged y) :=
  ⟨rfl, congrArg Except.ok h.1, h.2⟩

theorem Echoes.bind {x y : Attempt α} {f g : α → Attempt β} (h : Echoes x y)
    (hf : ∀ a, Echoes (f a) (g a)) : Echoes (x >>= f) (y >>= g) := by
  obtain ⟨ha, ho, he⟩ := h
  cases hx : x.outcome with
  | error e =>
    rw [bind_of_error hx, bind_of_error (ho.trans hx)]
    exact ⟨ha, rfl, he⟩
  | ok a =>
    rw [bind_of_ok hx, bind_of_ok (ho.trans hx)]
    obtain ⟨ha', ho', he'⟩ := hf a
    exact ⟨by rw [ha, ha'], ho', he.append he'⟩

theorem Echoes.rescue {x y : Attempt α} (h : Echoes x y) (handle : Fault → Option (Attempt α)) :
    Echoes (x.rescue handle) (y.rescue handle) := by
  obtain ⟨ha, ho, he⟩ := h
  rw [Attempt.rescue, Attempt.rescue, ho]
  split
  · exact ⟨ha, ho, he⟩
  · split
    · exact ⟨by rw [ha], rfl, he.append (.refl _)⟩
    · exact ⟨ha, ho, he⟩

theorem echoes_joinEach {f g : α → Attempt (List β)} (h : ∀ a, Echoes (f a) (g a))
    (items : List α) : Echoes (joinEach f items) (joinEach g items) := by
  induction items with
  | nil => exact .refl _
  | cons a items ih => exact (h a).bind fun _ => ih.bind fun _ => .refl _

theorem echoes_gatherFrom {f g : Located → Attempt (List α)} (h : ∀ k, Echoes (f k) (g k))
    (stack : List Visit) : Echoes (gatherFrom f stack) (gatherFrom g stack) := by
  induction stack using gatherFrom.induct with
  | case1 =>
    rw [gatherFrom, gatherFrom]
    exact .refl _
  | case2 n stack ih =>
    rw [gatherFrom, gatherFrom]
    exact (h n).bind fun _ => ih.bind fun _ => .refl _
  | case3 n stack ih =>
    rw [gatherFrom, gatherFrom]
    exact (Echoes.refl _).bind fun _ => ih

section

variable {go go' : Located → Attempt (Option (List Match))} (hgo : ∀ k, Echoes (go k) (go' k))
include hgo

theorem echoes_continueAt (o : Option Located) :
    Echoes (continueAt go o) (continueAt go' o) := by
  cases o with
  | none => exact .refl _
  | some k => exact hgo k

theorem echoes_combine (content : String) (n : Located) :
    Echoes (combine go content n) (combine go' content n) := by
  have hg := echoes_gatherFrom (fun k => (hgo k).bind fun found => .refl (pure (found.getD [])))
    [.enter n]
  have hj := echoes_joinEach (fun k => (hgo k).bind fun found => .refl (pure found.toList)) n.children
  rw [combine, combine]
  split_ifs
  · exact hg.bind fun _ => .refl _
  · exact (Echoes.refl _).bind fun _ => hj.bind fun _ => .refl _
  · exact (Echoes.refl _).bind (echoes_continueAt hgo)
  · exact (Echoes.refl _).bind (echoes_continueAt hgo)
  · exact .refl _

theorem echoes_step (more : Bool) (n : Located) (t : Token) :
    Echoes (step go false more n t) (step go' true more n t) := by
  cases t with
  | className name =>
    rw [step, step]
    split
    · exact hgo n
    · exact .refl _
  | id name => exact (Echoes.refl _).bind (echoes_continueAt hgo)
  | property name operator value flag =>
    refine (Echoes.refl _).bind fun found => (Echoes.refl _).bind fun accepted => ?_
    refine (echoes_ofLogged (echoes_trace _)).bind fun _ => ?_
    cases accepted with
    | true => exact hgo n
    | false => exact .refl _
  | combinator content => exact echoes_combine hgo content n
  | pseudoClass name argument =>
    refine (Echoes.refl (readIndex name argument)).bind fun index => ?_
    cases index with
    | none => exact .refl _
    | some i => exact (Echoes.refl _).bind (echoes_continueAt hgo)
  | pseudoElement name =>
    refine (Echoes.refl (lookUp (n.property name))).bind fun found => ?_
    cases found with
    | none => exact .refl _
    | some v =>
      cases more with
      | true => exact (echoes_ofLogged (echoes_trace _)).bind fun _ => .refl _
      | false => exact .refl _
  | foreign serial text kind => exact .refl _

end

theorem echoes_walk (total : Nat) (rest : List Token) (n : Located) :
    Echoes (walk false total rest n) (walk true total rest n) := by
  induction rest generalizing n with
  | nil => exact (echoes_ofLogged (echoes_trace _)).bind fun _ => .refl _
  | cons t rest ih =>
    exact (echoes_ofLogged (echoes_trace _)).bind fun _ => (echoes_step ih _ n t).rescue endBranch

theorem echoes_report {x y : Attempt α} (h : Echoes x y) (message : String) :
    Echoes x (ofLogged (report message) >>= fun _ => y) :=
  ⟨h.asked, h.outcome, .added rfl h.entries⟩

theorem echoes_tryCandidate (total : Nat) (rest : List Token) (n : Located) :
    Echoes (tryCandidate false total rest n) (tryCandidate true total rest n) := by
  refine (echoes_walk total rest n).bind fun result => ?_
  cases result with
  | none => exact .refl _
  | some found => exact echoes_report (.refl _) _

theorem echoes_seek (selector kind : String) (rest : List Token) (n : Located) :
    Echoes (seek false selector kind rest n) (seek true selector kind rest n) := by
  refine (Echoes.refl (gather _ n)).bind fun starts => ?_
  have hj := echoes_joinEach (echoes_tryCandidate (rest.length + 1) rest) starts
  exact echoes_report (hj.bind fun _ => .refl _) _

theorem echoes_execute (given : Given) (tokens : List Token) :
    Echoes (execute false given tokens) (execute true given tokens) :=
  (Echoes.refl (start given (.ofTokens tokens))).bind fun (root, kind, rest) =>
    echoes_seek (render tokens) kind rest root

end Attempt

/-- Whether a query traces itself changes nothing but its notes. With the trace it gives the same
results or the same error, whatever it is asked of and whatever tokens or text it runs, also where
something breaks it off on the way; it looks at the same nodes, and writes the same entries with
notes for debugging between them, so that from warnings on both write the same. -/
theorem tracing_only_annotates :
    (∀ given tokens,
      let quiet := Attempt.execute false given tokens
      let full := Attempt.execute true given tokens
      full.outcome = quiet.outcome ∧ full.asked = quiet.asked ∧
        Annotates quiet.entries full.entries ∧
        Logged.atLeast .warning full.entries = Logged.atLeast .warning quiet.entries) ∧
    (∀ subject tokens,
      let quiet := execute false subject tokens
      let full := execute true subject tokens
      full.value = quiet.value ∧ Annotates quiet.entries full.entries ∧
        Logged.atLeast .warning full.entries = Logged.atLeast .warning quiet.entries) ∧
    ∀ subject selector,
      let quiet := select false subject selector
      let full := select true subject selector
      full.value = quiet.value ∧ Annotates quiet.entries full.entries ∧
        Logged.atLeast .warning full.entries = Logged.atLeast .warning quiet.entries := by
  refine ⟨fun given tokens => ?_, fun subject tokens => ?_, fun subject selector => ?_⟩
  · obtain ⟨ha, ho, he⟩ := Attempt.echoes_execute given tokens
    exact ⟨ho, ha, he, he.atLeast rfl⟩
  · obtain ⟨hv, he⟩ := echoes_execute subject tokens
    exact ⟨hv, he, he.atLeast rfl⟩
  · obtain ⟨hv, he⟩ := echoes_select subject selector
    exact ⟨hv, he, he.atLeast rfl⟩

end SyntaxQuery.Query
