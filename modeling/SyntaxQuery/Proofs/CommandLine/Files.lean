import SyntaxQuery.CommandLine.Run
import SyntaxQuery.Proofs.Grammar.Loading
import SyntaxQuery.Proofs.Query.Search
import SyntaxQuery.Proofs.Selector.Completeness

namespace SyntaxQuery.CommandLine

open SyntaxQuery.Disk SyntaxQuery.Grammar SyntaxQuery.Journal SyntaxQuery.Query
open SyntaxQuery.Selector SyntaxQuery.Settings SyntaxQuery.Tree

/-- Languages with the same grammar parse alike. -/
def Toolbox.IsSteady (tools : Toolbox) : Prop :=
  ∀ a b : Language, a.pointer = b.pointer → tools.parse a = tools.parse b

inductive Source where
  | unreadable (e : Refused)
  | noLanguage (typeName : String)
  | noGrammar (e : Missing)
  | parsed (subject : Subject)

def sourceAt (tools : Toolbox) (disk : Disk) (language : String → Json) (path : String) : Source :=
  match disk.read path with
  | .error e => .unreadable e
  | .ok bytes =>
    match language path with
    | .text name =>
      match grammarOf tools.packages name with
      | .error e => .noGrammar e
      | .ok pointer => .parsed (tools.parse ⟨0, pointer⟩ bytes)
    | value => .noLanguage value.typeName

namespace Source

def outcome (tokens : List Token) : Source → Except Fault (List Match)
  | unreadable e => .error (.disk e)
  | noLanguage typeName => .error (.language typeName)
  | noGrammar e => .error (.grammar e)
  | parsed subject => ((Prepared.ofTokens tokens).run false subject).value.mapError .refused

def fault? (tokens : List Token) (source : Source) : Option Fault :=
  match source.outcome tokens with
  | .error e => some e
  | .ok _ => none

def answer? (selector : String) : Source → Option (List Match)
  | parsed subject => (select false subject selector).value.toOption
  | _ => none

end Source

def IsClassLed (selector : String) : Prop :=
  ∃ kind rest, parse selector = .ok (.className kind :: rest)

variable {tools : Toolbox} {disk : Disk} {plan : Plan} {progress : Progress}

theorem value_run_verbose (verbose verbose' : Bool) (subject : Subject) (q : Prepared) :
    (q.run verbose subject).value = (q.run verbose' subject).value := by
  unfold Prepared.run
  split
  · rfl
  · rfl
  · exact congrArg Except.ok ((value_seek _ _ _ _ _).trans (value_seek _ _ _ _ _).symm)
  · rfl

theorem toOption_run (selector selector' : String) (tokens : List Token) (subject : Subject) :
    (Prepared.run false subject ⟨selector, tokens⟩).value.toOption =
      (Prepared.run false subject ⟨selector', tokens⟩).value.toOption := by
  cases tokens with
  | nil => rfl
  | cons t rest =>
    cases subject with
    | rootless typeName => rfl
    | node n =>
      cases t with
      | className kind =>
        exact congrArg some ((value_seek _ _ _ _ _).trans (value_seek _ _ _ _ _).symm)
      | _ => rfl

theorem toOption_mapError {ε ε' α : Type} (f : ε → ε') (x : Except ε α) :
    (x.mapError f).toOption = x.toOption := by
  cases x <;> rfl

theorem Source.answer?_eq {selector : String} {tokens : List Token}
    (h : parse selector = .ok tokens) (source : Source) :
    source.answer? selector = (source.outcome tokens).toOption := by
  cases source with
  | parsed subject =>
    rw [answer?, outcome, toOption_mapError, Prepared.ofTokens,
      toOption_run _ selector]
    rw [select, Prepared.ofText, tokenize, h]
    exact toOption_mapError _ _
  | _ => rfl

/-- There are results on a source exactly if it is a tree and the selector starts with a class. -/
theorem Source.answer?_isSome (source : Source) (selector : String) :
    (source.answer? selector).isSome ↔
      IsClassLed selector ∧ ∃ root, source = .parsed (.node root) := by
  constructor
  · intro h
    cases source with
    | parsed subject =>
      rw [answer?, select, Prepared.ofText, tokenize] at h
      cases hp : parse selector with
      | error e =>
        rw [hp] at h
        cases h
      | ok tokens =>
        rw [hp] at h
        cases tokens with
        | nil => cases h
        | cons t rest =>
          cases subject with
          | rootless typeName => cases h
          | node root =>
            cases t with
            | className kind => exact ⟨⟨kind, rest, hp⟩, root, rfl⟩
            | _ => cases h
    | _ => cases h
  · rintro ⟨⟨kind, rest, hp⟩, root, rfl⟩
    rw [answer?, select, Prepared.ofText, tokenize, hp]
    rfl

theorem value_queryFile (ht : tools.IsSteady) (hc : progress.cache.IsSound tools.packages)
    (disk : Disk) (plan : Plan) (path : String) :
    (queryFile tools disk plan progress path).value.1 =
        (sourceAt tools disk plan.language path).outcome plan.tokens ∧
      (queryFile tools disk plan progress path).value.2.cache.IsSound tools.packages := by
  rw [queryFile, sourceAt]
  cases disk.read path with
  | error e => exact ⟨rfl, hc⟩
  | ok bytes =>
    cases plan.language path with
    | text name =>
      obtain ⟨hg, hs⟩ := hc.load name
      dsimp only
      rw [Logged.value_bind]
      generalize (progress.cache.load tools.packages name).value = loaded at hg hs
      obtain ⟨loaded, cache⟩ := loaded
      cases loaded with
      | error e =>
        rw [← hg]
        exact ⟨rfl, hs⟩
      | ok language =>
        rw [← hg]
        refine ⟨?_, hs⟩
        have hp : tools.parse language = tools.parse ⟨0, language.pointer⟩ := ht _ _ rfl
        have hv := value_run_verbose plan.verbose false (tools.parse language bytes)
          (.ofTokens plan.tokens)
        change ((Prepared.ofTokens plan.tokens).run plan.verbose
          (tools.parse language bytes)).value.mapError Fault.refused = _
        rw [hv, hp]
        rfl
    | _ => exact ⟨rfl, hc⟩

/-- A run collects the answers of the files before the first one that has none, and stops there with
its failure. -/
theorem value_queryFiles (ht : tools.IsSteady) (hc : progress.cache.IsSound tools.packages)
    {selector : String} (hp : parse selector = .ok plan.tokens) (files : List String) :
    (queryFiles tools disk plan progress files).value.results =
        (files.takeWhile fun path =>
          ((sourceAt tools disk plan.language path).answer? selector).isSome).map (fun path =>
            (path, ((sourceAt tools disk plan.language path).answer? selector).getD [])) ∧
      (queryFiles tools disk plan progress files).value.failure =
        files.findSome? fun path => (sourceAt tools disk plan.language path).fault? plan.tokens := by
  -- The grammars that are kept stay sound from file to file.
  induction files generalizing progress with
  | nil => exact ⟨rfl, rfl⟩
  | cons path rest ih =>
    obtain ⟨ho, hs⟩ := value_queryFile ht hc disk plan path
    have ha := (sourceAt tools disk plan.language path).answer?_eq hp
    rw [← ho] at ha
    rw [List.takeWhile_cons, List.findSome?_cons, Source.fault?, ← ho, queryFiles]
    dsimp only
    rw [Logged.value_bind]
    generalize (queryFile tools disk plan progress path).value = queried at ha hs
    obtain ⟨outcome, progress⟩ := queried
    cases outcome with
    | error e =>
      rw [ha]
      exact ⟨rfl, rfl⟩
    | ok found =>
      obtain ⟨hr, hf⟩ := ih hs
      refine ⟨?_, hf⟩
      change (path, found) :: (queryFiles tools disk plan progress rest).value.results = _
      rw [hr, ha]
      exact congrArg (fun answer => (path, answer) :: _) (congrArg (Option.getD · []) ha).symm

end SyntaxQuery.CommandLine
