import SyntaxQuery.Proofs.CommandLine.Files
import SyntaxQuery.Proofs.Disk.Write
import SyntaxQuery.Proofs.Journal.SetUp
import SyntaxQuery.Proofs.Query.Refusal
import SyntaxQuery.Proofs.Settings.Reopening
import SyntaxQuery.Tree.Outline

namespace SyntaxQuery.CommandLine

open SyntaxQuery.Disk SyntaxQuery.Grammar SyntaxQuery.Journal SyntaxQuery.Query
open SyntaxQuery.Selector SyntaxQuery.Settings SyntaxQuery.Tree

def settingsOf (disk : Disk) (options : Options) : Section :=
  (openStore disk options.config).value.values

def setupOf (disk : Disk) (options : Options) : Setup :=
  journalSetup options (settingsOf disk options)

/-- The disk that the files of a run are read from. The file of its journal is made before. -/
def diskOf (disk : Disk) (options : Options) : Disk :=
  (setupOf disk options).diskAfter disk

def sourceOf (tools : Toolbox) (disk : Disk) (options : Options) (path : String) : Source :=
  sourceAt tools (diskOf disk options) (languageOf options (settingsOf disk options)) path

def answerOf? (tools : Toolbox) (disk : Disk) (options : Options) (path : String) :
    Option (List Match) :=
  (sourceOf tools disk options path).answer? options.selector

/-- What no exit code stands for: a path with a null character, and a file whose language is no
text. -/
def IsUnforeseen (disk : Disk) (options : Options) (path : String) : Prop :=
  path.contains '\x00' ∨
    (∃ bytes, (diskOf disk options).read path = .ok bytes) ∧
      (languageOf options (settingsOf disk options) path).text? = none

/-- How a run breaks off: the journal cannot be set up, or after files with results there is one that
no exit code stands for. -/
inductive BreaksOff (tools : Toolbox) (disk : Disk) (options : Options) : Prop where
  | setup (h : (setupOf disk options).Fails disk)
  | file {tokens : List Token} {before : List String} {path : String} {after : List String}
      (hp : parse options.selector = .ok tokens) (hf : options.files = before ++ path :: after)
      (hb : ∀ earlier ∈ before, (answerOf? tools disk options earlier).isSome)
      (hu : IsUnforeseen disk options path)

structure Succeeds (tools : Toolbox) (disk : Disk) (options : Options) : Prop where
  settled : ¬ (setupOf disk options).Fails disk
  parsed : ∃ tokens, parse options.selector = .ok tokens
  answered : ∀ path ∈ options.files, (answerOf? tools disk options path).isSome

/-- The settings of a run are those that their file says, laid over the defaults, or the defaults if
there is no such file. -/
structure SettingsFollow (disk : Disk) (options : Options) : Prop where
  said : ∀ fields, Says disk (pathFrom disk options.config) fields →
    settingsOf disk options = overlay defaults fields
  unsaid : (∀ fields, ¬ Says disk (pathFrom disk options.config) fields) →
    settingsOf disk options = defaults

/-- No query of a run is broken off by anything but what it lacks to start: the results of a file are
those of a query that goes through to the end. -/
def QueriesSettle (tools : Toolbox) (disk : Disk) (options : Options) : Prop :=
  ∀ tokens path given, parse options.selector = .ok tokens →
    sourceOf tools disk options path = .parsed given.subject →
      (∃ found, answerOf? tools disk options path = some found ∧
        (Attempt.execute false given tokens).outcome = .ok found) ∨
      ∃ e, answerOf? tools disk options path = none ∧
        (Attempt.execute false given tokens).outcome = .error (.refused e)

def failureOf? (tools : Toolbox) (disk : Disk) (options : Options) : Option Fault :=
  match parse options.selector with
  | .error e => some (.malformed e)
  | .ok tokens =>
    options.files.findSome? fun path => (sourceOf tools disk options path).fault? tokens

def resultsOf (tools : Toolbox) (disk : Disk) (options : Options) : List (String × List Match) :=
  (options.files.takeWhile fun path => (answerOf? tools disk options path).isSome).map fun path =>
    (path, (answerOf? tools disk options path).getD [])

def endingOf (failure : Option Fault) : Except Crash Nat :=
  match failure.map Fault.settle with
  | none => .ok 0
  | some (.error crash) => .error crash
  | some (.ok _) => .ok 1

variable {tools : Toolbox} {moment : Moment} {disk : Disk} {options : Options}

theorem answerOf?_of_error {e : Malformed} (h : parse options.selector = .error e)
    (path : String) : answerOf? tools disk options path = none := by
  have hn : ¬ IsClassLed options.selector := by
    rintro ⟨kind, rest, hp⟩
    rw [h] at hp
    cases hp
  rw [← Option.not_isSome_iff_eq_none, answerOf?, Source.answer?_isSome]
  exact fun hs => hn hs.1

theorem value_queryAll (ht : tools.IsSteady) (disk : Disk) (options : Options) (verbose : Bool) :
    (queryAll tools (diskOf disk options) options verbose
        (languageOf options (settingsOf disk options))).value.results =
        resultsOf tools disk options ∧
      (queryAll tools (diskOf disk options) options verbose
        (languageOf options (settingsOf disk options))).value.failure =
        failureOf? tools disk options := by
  rw [queryAll, failureOf?, resultsOf, tokenize]
  cases hp : parse options.selector with
  | error e =>
    refine ⟨?_, rfl⟩
    cases options.files with
    | nil => rfl
    | cons path rest =>
      rw [List.takeWhile_cons, answerOf?_of_error hp]
      rfl
  | ok tokens => exact value_queryFiles ht (Cache.isSound_empty _) hp options.files

def journalOf (moment : Moment) (disk : Disk) (options : Options) : Except Unfit Unit × Outlets :=
  ((Outlets.mk [] disk "").emitAll moment (openStore disk options.config).entries).setUp
    (setupOf disk options)

theorem journalOf_cases (moment : Moment) (disk : Disk) (options : Options) :
    ((∃ e, (journalOf moment disk options).1 = .error e) ∧ (setupOf disk options).Fails disk) ∨
      ((journalOf moment disk options).1 = .ok () ∧ ¬ (setupOf disk options).Fails disk ∧
        (journalOf moment disk options).2.disk = diskOf disk options) := by
  have hu : (Outlets.mk [] disk "").loggers = [] := rfl
  obtain ⟨hl, hd⟩ := Outlets.emitAll_unset hu moment (openStore disk options.config).entries
  have hs := Outlets.setUp_unset hl (setupOf disk options)
  rw [hd] at hs
  exact hs

/-- A run that cannot set up its journal breaks off with nothing printed. -/
theorem runWith_of_fails (h : (setupOf disk options).Fails disk) (tools : Toolbox)
    (moment : Moment) :
    ∃ e, (journalOf moment disk options).1 = .error e ∧
      (runWith tools moment disk options).ending = .error (.setup e) ∧
      (runWith tools moment disk options).printed = "" := by
  obtain ⟨⟨e, he⟩, -⟩ | ⟨-, hs, -⟩ := journalOf_cases moment disk options
  · rw [runWith]
    dsimp only
    generalize hj : Outlets.setUp _ _ = journal
    obtain ⟨result, outlets⟩ := journal
    obtain rfl : result = .error e := (congrArg Prod.fst hj).symm.trans he
    exact ⟨e, he, rfl, rfl⟩
  · exact absurd h hs

/-- A run that can ends as its outcome says. -/
theorem runWith_of_settled (ht : tools.IsSteady) (h : ¬ (setupOf disk options).Fails disk)
    (moment : Moment) :
    ∃ outcome : Outcome, outcome.results = resultsOf tools disk options ∧
      outcome.failure = failureOf? tools disk options ∧
      (runWith tools moment disk options).ending = endingOf outcome.failure ∧
      (runWith tools moment disk options).printed =
        output (wantsJson options (settingsOf disk options)) (options.files.length > 1)
          outcome := by
  obtain ⟨-, hf⟩ | ⟨he, -, hd⟩ := journalOf_cases moment disk options
  · exact absurd hf h
  · rw [runWith]
    dsimp only
    -- The files are read after the set-up, from the disk that it leaves behind.
    generalize hj : Outlets.setUp _ _ = journal
    obtain ⟨result, outlets⟩ := journal
    obtain rfl : result = .ok () := (congrArg Prod.fst hj).symm.trans he
    have ho : outlets.disk = diskOf disk options :=
      (congrArg (fun j => j.2.disk) hj).symm.trans hd
    have hq := value_queryAll ht disk options
      (options.verbose || (get "query.verbose" (.truth false) (settingsOf disk options)).isSet)
    dsimp only
    rw [ho]
    rw [settingsOf] at hq ⊢
    generalize queryAll _ _ _ _ _ = run at hq ⊢
    refine ⟨run.value, hq.1, hq.2, ?_⟩
    rw [endingOf]
    generalize run.value.failure.map Fault.settle = settled
    rcases settled with _ | crash | noted
    · exact ⟨rfl, rfl⟩
    · exact ⟨rfl, rfl⟩
    · exact ⟨rfl, rfl⟩

def Fault.IsFatal (e : Fault) : Prop :=
  ∃ crash, e.settle = .error crash

theorem endingOf_eq_zero (failure : Option Fault) : endingOf failure = .ok 0 ↔ failure = none := by
  rw [endingOf]
  cases failure with
  | none => exact iff_of_true rfl rfl
  | some e =>
    dsimp only [Option.map_some]
    cases e.settle <;> simp

theorem endingOf_eq_error (failure : Option Fault) :
    (∃ crash, endingOf failure = .error crash) ↔ ∃ e, failure = some e ∧ e.IsFatal := by
  rw [endingOf]
  cases failure with
  | none => simp
  | some e =>
    dsimp only [Option.map_some]
    cases hs : e.settle with
    | error crash => exact iff_of_true ⟨crash, rfl⟩ ⟨e, rfl, crash, hs⟩
    | ok noted => simp [Fault.IsFatal, hs]

theorem fault?_eq_none {tokens : List Token} (hp : parse options.selector = .ok tokens)
    (path : String) :
    (sourceOf tools disk options path).fault? tokens = none ↔
      (answerOf? tools disk options path).isSome := by
  rw [answerOf?, Source.answer?_eq hp, Source.fault?]
  cases (sourceOf tools disk options path).outcome tokens with
  | error e => simp [Except.toOption]
  | ok found => simp [Except.toOption]

theorem isFatal_disk (e : Refused) : (Fault.disk e).IsFatal ↔ e.isPathless := by
  rw [Fault.IsFatal, Fault.settle]
  split
  · exact iff_of_true ⟨_, rfl⟩ ‹_›
  · exact iff_of_false nofun ‹_›

theorem not_isFatal_of_parsed {tokens : List Token} {subject : Subject} {e : Fault}
    (h : (Source.parsed subject).fault? tokens = some e) : ¬ e.IsFatal := by
  rw [Source.fault?, Source.outcome] at h
  cases hr : ((Prepared.ofTokens tokens).run false subject).value with
  | error refusal =>
    rw [hr] at h
    obtain rfl := Option.some.inj h
    rintro ⟨crash, hc⟩
    cases hc
  | ok found =>
    rw [hr] at h
    cases h

/-- The files that no exit code stands for are those with a fatal failure. -/
theorem isFatal_fault? (tools : Toolbox) (disk : Disk) (options : Options) (tokens : List Token)
    (path : String) :
    (∃ e, (sourceOf tools disk options path).fault? tokens = some e ∧ e.IsFatal) ↔
      IsUnforeseen disk options path := by
  rw [IsUnforeseen, sourceOf, sourceAt]
  cases hr : (diskOf disk options).read path with
  | error e =>
    have hf : (Source.unreadable e).fault? tokens = some (.disk e) := rfl
    simp [hf, isFatal_disk, isPathless_of_read hr]
  | ok bytes =>
    have hn : ¬ path.contains '\x00' := by
      intro hn
      rw [Disk.read, locate_of_null hn] at hr
      cases hr
    cases hl : languageOf options (settingsOf disk options) path with
    | text name =>
      refine iff_of_false ?_ ?_
      · rintro ⟨e, he, hf⟩
        dsimp only at he
        cases hg : grammarOf tools.packages name with
        | error missing =>
          rw [hg] at he
          obtain rfl := Option.some.inj he
          obtain ⟨crash, hc⟩ := hf
          cases hc
        | ok pointer =>
          rw [hg] at he
          exact not_isFatal_of_parsed he hf
      · rintro (hc | ⟨-, ht⟩)
        · exact hn hc
        · cases ht
    | _ => exact iff_of_true ⟨_, rfl, _, rfl⟩ (.inr ⟨⟨bytes, rfl⟩, rfl⟩)

theorem failureOf?_eq_none :
    failureOf? tools disk options = none ↔
      (∃ tokens, parse options.selector = .ok tokens) ∧
        ∀ path ∈ options.files, (answerOf? tools disk options path).isSome := by
  rw [failureOf?]
  cases hp : parse options.selector with
  | error e => exact iff_of_false nofun fun h => nomatch h.1
  | ok tokens =>
    have hf : ∀ path, (sourceOf tools disk options path).fault? tokens = none ↔
        (answerOf? tools disk options path).isSome := fault?_eq_none hp
    rw [List.findSome?_eq_none_iff]
    simp [hf]

theorem isFatal_failureOf? :
    (∃ e, failureOf? tools disk options = some e ∧ e.IsFatal) ↔
      ∃ tokens before path after, parse options.selector = .ok tokens ∧
        options.files = before ++ path :: after ∧
        (∀ earlier ∈ before, (answerOf? tools disk options earlier).isSome) ∧
        IsUnforeseen disk options path := by
  rw [failureOf?]
  cases hp : parse options.selector with
  | error e =>
    refine iff_of_false ?_ nofun
    rintro ⟨_, ⟨⟩, crash, hc⟩
    cases hc
  | ok tokens =>
    constructor
    · rintro ⟨e, he, hf⟩
      obtain ⟨before, path, after, hs, hpath, hb⟩ := List.findSome?_eq_some_iff.mp he
      have hu := (isFatal_fault? tools disk options tokens path).mp ⟨e, hpath, hf⟩
      exact ⟨tokens, before, path, after, rfl, hs,
        fun earlier h => (fault?_eq_none hp earlier).mp (hb earlier h), hu⟩
    · rintro ⟨_, before, path, after, ⟨⟩, hs, hb, hu⟩
      obtain ⟨e, he, hf⟩ := (isFatal_fault? tools disk options tokens path).mpr hu
      refine ⟨e, List.findSome?_eq_some_iff.mpr ⟨before, path, after, hs, he, ?_⟩, hf⟩
      exact fun earlier h => (fault?_eq_none hp earlier).mpr (hb earlier h)

theorem breaksOff_of_settled (h : ¬ (setupOf disk options).Fails disk) :
    BreaksOff tools disk options ↔ ∃ e, failureOf? tools disk options = some e ∧ e.IsFatal := by
  rw [isFatal_failureOf?]
  constructor
  · rintro (hs | ⟨hp, hf, hb, hu⟩)
    · exact absurd hs h
    · exact ⟨_, _, _, _, hp, hf, hb, hu⟩
  · rintro ⟨_, _, _, _, hp, hf, hb, hu⟩
    exact .file hp hf hb hu

theorem succeeds_of_settled (h : ¬ (setupOf disk options).Fails disk) :
    Succeeds tools disk options ↔ failureOf? tools disk options = none := by
  rw [failureOf?_eq_none]
  exact ⟨fun hs => ⟨hs.parsed, hs.answered⟩, fun hs => ⟨h, hs.1, hs.2⟩⟩

theorem ending_eq_error (ht : tools.IsSteady) (moment : Moment) :
    (∃ crash, (runWith tools moment disk options).ending = .error crash) ↔
      BreaksOff tools disk options := by
  by_cases h : (setupOf disk options).Fails disk
  · obtain ⟨e, -, he, -⟩ := runWith_of_fails h tools moment
    exact iff_of_true ⟨_, he⟩ (.setup h)
  · obtain ⟨outcome, -, hf, he, -⟩ := runWith_of_settled ht h moment
    rw [he, hf, endingOf_eq_error, breaksOff_of_settled h]

theorem ending_eq_zero (ht : tools.IsSteady) (moment : Moment) :
    (runWith tools moment disk options).ending = .ok 0 ↔ Succeeds tools disk options := by
  by_cases h : (setupOf disk options).Fails disk
  · obtain ⟨e, -, he, -⟩ := runWith_of_fails h tools moment
    rw [he]
    exact iff_of_false nofun fun hs => hs.settled h
  · obtain ⟨outcome, -, hf, he, -⟩ := runWith_of_settled ht h moment
    rw [he, hf, endingOf_eq_zero, succeeds_of_settled h]

theorem ending_cases (tools : Toolbox) (moment : Moment) (disk : Disk) (options : Options) :
    (∃ crash, (runWith tools moment disk options).ending = .error crash) ∨
      (runWith tools moment disk options).ending = .ok 0 ∨
      (runWith tools moment disk options).ending = .ok 1 := by
  rw [runWith]
  dsimp only
  split
  · exact .inl ⟨_, rfl⟩
  · split
    · exact .inr (.inl rfl)
    · exact .inl ⟨_, rfl⟩
    · exact .inr (.inr rfl)

theorem settingsFollow (hw : HasWholePairs disk (pathFrom disk options.config)) :
    SettingsFollow disk options := by
  constructor
  · exact fun fields h => value_load_of_keeps ((says_iff_keeps hw).mp h)
  · exact fun h => value_load_of_not_keeps fun fields hk => h fields ((says_iff_keeps hw).mpr hk)

theorem answerOf?_of_parsed {tokens : List Token} {path : String} {given : Given}
    (hp : parse options.selector = .ok tokens)
    (hs : sourceOf tools disk options path = .parsed given.subject) :
    answerOf? tools disk options path = (execute false given.subject tokens).value.toOption := by
  rw [answerOf?, Source.answer?_eq hp, hs, Source.outcome, toOption_mapError]
  exact (toOption_mapError _ _).symm

theorem queriesSettle
    (hb : ∀ tokens, parse options.selector = .ok tokens → ∀ t ∈ tokens, isBounded t = true) :
    QueriesSettle tools disk options := by
  intro tokens path given hp hs
  rw [answerOf?_of_parsed hp hs]
  obtain ⟨e, hl⟩ | ⟨root, kind, rest, hr, rfl⟩ := lacks_or_starts given tokens
  · exact .inr ⟨e, by rw [hl.execute]; rfl, by rw [hl.attempt]; rfl⟩
  · obtain ⟨found, more, ⟨ho, he⟩, -⟩ :=
      attempt_of_starts hr kind (List.forall_mem_cons.mp (hb _ hp)).2 false
    exact .inl ⟨found, by rw [he]; rfl, ho⟩

/-- A run breaks off, ends with zero after it has done all that it is asked for, or ends with one. Its
settings and the results of its queries, which decide how it ends, are what its files say: no number
in its selector is too long to be read, and no text of its settings has half a pair alone. -/
theorem ending_iff (ht : tools.IsSteady) (moment : Moment) (disk : Disk) (options : Options)
    (hb : ∀ tokens, parse options.selector = .ok tokens → ∀ t ∈ tokens, isBounded t = true)
    (hw : HasWholePairs disk (pathFrom disk options.config)) :
    SettingsFollow disk options ∧ QueriesSettle tools disk options ∧
      ((∃ crash, (runWith tools moment disk options).ending = .error crash) ↔
        BreaksOff tools disk options) ∧
      ((runWith tools moment disk options).ending = .ok 0 ↔ Succeeds tools disk options) ∧
      ((runWith tools moment disk options).ending = .ok 1 ↔
        ¬ BreaksOff tools disk options ∧ ¬ Succeeds tools disk options) := by
  refine ⟨settingsFollow hw, queriesSettle hb, ending_eq_error ht moment,
    ending_eq_zero ht moment, ?_⟩
  rw [← ending_eq_error ht moment, ← ending_eq_zero ht moment]
  obtain ⟨crash, hc⟩ | hc | hc := ending_cases tools moment disk options
  all_goals simp [hc]

def nameTools : Toolbox where
  packages _ := some fun _ => true
  parse _ bytes := .node (.root (Outline.toNode true
    (.mk { Sketch.plain "name" with content := .octets bytes } [])))
  clock _ := (0, 1)

theorem nameTools_isSteady : nameTools.IsSteady :=
  fun _ _ _ => rfl

def nullLevel : Store :=
  ⟨"config.json", [("logging", .object [("console_level", .null)])]⟩

def nameOptions : Options :=
  ⟨".name", ["a.js"], none, none, false, false, some "config.json"⟩

theorem save_nullLevel :
    ∃ disk, (nullLevel.save (.bare "/home")).value = (.ok (), disk) :=
  ⟨_, value_save_of_locate rfl locate_bare_home ⟨rfl, rfl⟩⟩

theorem consoleLevel_nullLevel {disk : Disk}
    (h : (nullLevel.save (.bare "/home")).value = (.ok (), disk)) :
    (setupOf disk nameOptions).consoleLevel = .null := by
  have hp : Json.Proper (.object nullLevel.values) :=
    .object (by decide) (List.forall_mem_singleton.mpr
      (.object (by decide) (List.forall_mem_singleton.mpr .null)))
  have hs : settingsOf disk nameOptions = overlay defaults nullLevel.values := by
    rw [settingsOf, value_openStore_of_save h hp rfl]
  rw [setupOf, hs]
  cbv

theorem isBounded_nameOptions :
    ∀ tokens, parse nameOptions.selector = .ok tokens → ∀ t ∈ tokens, isBounded t = true := by
  have hp : parse nameOptions.selector = .ok [.className "name"] := by cbv
  intro tokens ht
  obtain rfl := Except.ok.inj (hp.symm.trans ht)
  exact List.forall_mem_singleton.mpr rfl

theorem hasWholePairs_nullLevel {disk : Disk}
    (h : (nullLevel.save (.bare "/home")).value = (.ok (), disk)) :
    HasWholePairs disk (pathFrom disk nameOptions.config) :=
  hasWholePairs_of_read (read_of_save h) (by cbv)

theorem nullLevel_breaks_off :
    ∃ disk, nameTools.IsSteady ∧ (nullLevel.save (.bare "/home")).value = (.ok (), disk) ∧
      (∀ tokens, parse nameOptions.selector = .ok tokens → ∀ t ∈ tokens, isBounded t = true) ∧
      HasWholePairs disk (pathFrom disk nameOptions.config) ∧
      ∃ crash, (runWith nameTools .epoch disk nameOptions).ending = .error crash := by
  obtain ⟨disk, hs⟩ := save_nullLevel
  have hn : (setupOf disk nameOptions).consoleLevel.text? = none :=
    congrArg Json.text? (consoleLevel_nullLevel hs)
  have hw := hasWholePairs_nullLevel hs
  obtain ⟨-, -, he, -⟩ :=
    ending_iff nameTools_isSteady .epoch disk nameOptions isBounded_nameOptions hw
  exact ⟨disk, nameTools_isSteady, hs, isBounded_nameOptions, hw,
    he.mpr (.setup (.consoleLevel hn))⟩

end SyntaxQuery.CommandLine
