import Mathlib.Data.List.Induction
import SyntaxQuery.Proofs.CommandLine.Ending

namespace SyntaxQuery.Table

variable {α : Type} {name : String} {names : List String}

theorem put_map_of_mem (f : String → α) (h : name ∈ names) :
    Table.put name (f name) (names.map fun n => (n, f n)) = names.map fun n => (n, f n) := by
  induction names with
  | nil => cases h
  | cons first rest ih =>
    rw [List.map_cons, put]
    split_ifs with he
    · rw [he]
    · rw [ih ((List.mem_cons.mp h).resolve_left (Ne.symm he))]

theorem put_map_of_not_mem (f : String → α) (h : name ∉ names) :
    Table.put name (f name) (names.map fun n => (n, f n)) =
      (names ++ [name]).map fun n => (n, f n) := by
  induction names with
  | nil => rfl
  | cons first rest ih =>
    obtain ⟨hne, hr⟩ := not_or.mp (mt List.mem_cons.mpr h)
    rw [List.map_cons, put, if_neg (Ne.symm hne), ih hr]
    rfl

/-- Entries that are put one after the other stand in the order in which their names first come. -/
theorem foldl_put (f : String → α) (names : List String) :
    names.foldl (fun table n => Table.put n (f n) table) [] =
      names.eraseDups.map fun n => (n, f n) := by
  induction names using List.reverseRecOn with
  | nil => rfl
  | append_singleton names name ih =>
    rw [List.foldl_append, List.foldl_cons, List.foldl_nil, ih, List.eraseDups_append]
    by_cases h : name ∈ names
    · have hr : [name].removeAll names = [] := by simp [List.removeAll, h]
      rw [put_map_of_mem f (List.mem_eraseDups.mpr h), hr, List.eraseDups_nil, List.append_nil]
    · have hr : [name].removeAll names = [name] := by simp [List.removeAll, h]
      rw [put_map_of_not_mem f (mt List.mem_eraseDups.mp h), hr]
      rfl

end SyntaxQuery.Table

namespace SyntaxQuery.CommandLine

open SyntaxQuery.Disk SyntaxQuery.Journal SyntaxQuery.Query SyntaxQuery.Selector
open SyntaxQuery.Settings SyntaxQuery.Tree

structure IsTyped (settings : Section) : Prop where
  consoleLevel : (get "logging.console_level" (.text "WARNING") settings).text?.isSome
  fileLevel : (get "logging.file_level" (.text "DEBUG") settings).text?.isSome
  logFile : get "logging.log_file" .null settings = .null ∨
    (get "logging.log_file" .null settings).text?.isSome
  language : (get "parsing.default_language" (.text "javascript") settings).text?.isSome

def answersOf (tools : Toolbox) (disk : Disk) (options : Options) (path : String) : List Match :=
  (answerOf? tools disk options path).getD []

def lineOf (options : Options) (path : String) (result : Match) : String :=
  (if options.files.length > 1 then path ++ ": " else "") ++ resultText result ++ "\n"

/-- The lines for the files before the first one that has no results. -/
def linesOf (tools : Toolbox) (disk : Disk) (options : Options) : List String :=
  let answered := options.files.takeWhile fun path => (answerOf? tools disk options path).isSome
  answered.flatMap fun path => (answersOf tools disk options path).map (lineOf options path)

def documentOf (tools : Toolbox) (disk : Disk) (options : Options) : Json :=
  .object (options.files.eraseDups.map fun path =>
    (path, .array ((answersOf tools disk options path).map resultJson)))

variable {tools : Toolbox} {moment : Moment} {disk : Disk} {options : Options}

theorem succeeds_iff (hf : options.files ≠ []) :
    Succeeds tools disk options ↔ ¬ (setupOf disk options).Fails disk ∧
      IsClassLed options.selector ∧
      ∀ path ∈ options.files, ∃ root, sourceOf tools disk options path = .parsed (.node root) := by
  constructor
  · rintro ⟨hs, -, ha⟩
    simp only [answerOf?, Source.answer?_isSome] at ha
    obtain ⟨path, hp⟩ := List.exists_mem_of_ne_nil _ hf
    exact ⟨hs, (ha path hp).1, fun path hp => (ha path hp).2⟩
  · rintro ⟨hs, hl, ha⟩
    obtain ⟨kind, rest, hp⟩ := hl
    exact ⟨hs, ⟨_, hp⟩, fun path h => (Source.answer?_isSome _ _).mpr ⟨⟨kind, rest, hp⟩, ha path h⟩⟩

theorem textOutput_resultsOf (tools : Toolbox) (disk : Disk) (options : Options) :
    textOutput (options.files.length > 1) (resultsOf tools disk options) =
      String.join (linesOf tools disk options) := by
  rw [textOutput, resultsOf, linesOf, List.flatMap_map]
  simp only [decide_eq_true_eq]
  rfl

theorem jsonOutput_resultsOf (h : Succeeds tools disk options) :
    jsonOutput (resultsOf tools disk options) =
      Json.render 2 (documentOf tools disk options) ++ "\n" := by
  have ha : options.files.takeWhile (fun path => (answerOf? tools disk options path).isSome) =
      options.files := List.takeWhile_eq_self_iff.mpr h.answered
  rw [jsonOutput, resultsOf, ha, List.foldl_map, documentOf]
  exact congrArg (fun fields => Json.render 2 (.object fields) ++ "\n")
    (Table.foldl_put
      (fun path => Json.array ((answersOf tools disk options path).map resultJson)) options.files)

theorem IsTyped.languageOf (h : IsTyped (settingsOf disk options)) (path : String) :
    (languageOf options (settingsOf disk options) path).text? ≠ none := by
  rw [CommandLine.languageOf]
  split
  · nofun
  · nofun
  · exact Option.isSome_iff_ne_none.mp h.language

theorem IsTyped.not_fails (h : IsTyped (settingsOf disk options))
    (ho : ∀ path, (setupOf disk options).logFile = .text path → path ≠ "" →
      ∃ there, (openFile disk path).1 = .ok there) : ¬ (setupOf disk options).Fails disk := by
  have hc : (setupOf disk options).consoleLevel.text?.isSome := by
    rw [setupOf, journalSetup]
    dsimp only
    split
    · rfl
    · exact h.consoleLevel
  have hl : (setupOf disk options).logFile.isSet →
      (setupOf disk options).logFile.text? ≠ none := by
    have he : (setupOf disk options).logFile =
        get "logging.log_file" .null (settingsOf disk options) := rfl
    rw [he]
    obtain hl | hl := h.logFile
    · rw [hl]
      intro hs
      cases hs
    · exact fun _ => Option.isSome_iff_ne_none.mp hl
  obtain ⟨console, hc⟩ := Option.isSome_iff_exists.mp hc
  obtain ⟨file, hf⟩ := Option.isSome_iff_exists.mp h.fileLevel
  exact Setup.not_fails hc hf hl ho

/-- A run with typed settings breaks off at nothing but a file that its journal cannot open and a path
with a null character. -/
theorem IsTyped.not_breaksOff (h : IsTyped (settingsOf disk options))
    (ho : ∀ path, (setupOf disk options).logFile = .text path → path ≠ "" →
      ∃ there, (openFile disk path).1 = .ok there)
    (hn : ∀ path ∈ options.files, ¬ path.contains '\x00') : ¬ BreaksOff tools disk options := by
  rintro (hs | ⟨-, hf, -, hu | ⟨-, hu⟩⟩)
  · exact h.not_fails ho hs
  · exact hn _ (hf ▸ List.mem_append_cons_self) hu
  · exact h.languageOf _ hu

theorem ending_format (ht : tools.IsSteady) (moment : Moment) (format : Option String) :
    (runWith tools moment disk { options with format }).ending =
      (runWith tools moment disk options).ending := by
  by_cases h : (setupOf disk options).Fails disk
  · obtain ⟨e, hj, he, -⟩ := runWith_of_fails h tools moment
    have h' : (setupOf disk { options with format }).Fails disk := h
    obtain ⟨e', hj', he', -⟩ := runWith_of_fails h' tools moment
    obtain rfl := Except.error.inj (hj.symm.trans hj')
    rw [he, he']
  · obtain ⟨outcome, -, hf, he, -⟩ := runWith_of_settled ht h moment
    have h' : ¬ (setupOf disk { options with format }).Fails disk := h
    obtain ⟨outcome', -, hf', he', -⟩ := runWith_of_settled ht h' moment
    rw [he, he', hf, hf']
    rfl

theorem printed_text (ht : tools.IsSteady) (h : ¬ (setupOf disk options).Fails disk)
    (hj : wantsJson options (settingsOf disk options) = false) (moment : Moment) :
    (runWith tools moment disk options).printed = String.join (linesOf tools disk options) := by
  obtain ⟨outcome, hr, -, -, hp⟩ := runWith_of_settled ht h moment
  rw [hp, hj, output, hr, textOutput_resultsOf]
  rfl

theorem printed_json (ht : tools.IsSteady)
    (hj : wantsJson options (settingsOf disk options) = true) (h : Succeeds tools disk options)
    (moment : Moment) :
    (runWith tools moment disk options).printed =
      Json.render 2 (documentOf tools disk options) ++ "\n" := by
  obtain ⟨outcome, hr, hf, -, hp⟩ := runWith_of_settled ht h.settled moment
  rw [(succeeds_of_settled h.settled).mp h] at hf
  rw [hp, hj, output, hr, hf, jsonOutput_resultsOf h]
  rfl

theorem printed_json_empty (ht : tools.IsSteady)
    (hj : wantsJson options (settingsOf disk options) = true) (h : ¬ Succeeds tools disk options)
    (moment : Moment) : (runWith tools moment disk options).printed = "" := by
  by_cases hs : (setupOf disk options).Fails disk
  · obtain ⟨-, -, -, hp⟩ := runWith_of_fails hs tools moment
    exact hp
  · obtain ⟨outcome, -, hf, -, hp⟩ := runWith_of_settled ht hs moment
    have hn : outcome.failure.isSome := by
      rw [hf]
      exact Option.isSome_iff_ne_none.mpr (mt (succeeds_of_settled hs).mpr h)
    rw [hp, hj, output, hn]
    rfl

/-- Both modes end alike, and show the same results: lines for the files before the first one that
fails, or a document of all files that is complete or not there at all. The settings and the results
are what the files say: no number in the selector is too long to be read, and no text of the settings
has half a pair alone. -/
theorem modes_agree (ht : tools.IsSteady) (moment : Moment) (disk : Disk) (options : Options)
    (hb : ∀ tokens, parse options.selector = .ok tokens → ∀ t ∈ tokens, isBounded t = true)
    (hw : HasWholePairs disk (pathFrom disk options.config)) :
    SettingsFollow disk options ∧ QueriesSettle tools disk options ∧
    (∀ format, (runWith tools moment disk { options with format }).ending =
      (runWith tools moment disk options).ending) ∧
    (options.files ≠ [] → ((runWith tools moment disk options).ending = .ok 0 ↔
      ¬ (setupOf disk options).Fails disk ∧ IsClassLed options.selector ∧
        ∀ path ∈ options.files, ∃ root,
          sourceOf tools disk options path = .parsed (.node root))) ∧
    (IsTyped (settingsOf disk options) →
      (∀ path, (setupOf disk options).logFile = .text path → path ≠ "" →
        ∃ there, (openFile disk path).1 = .ok there) →
      (∀ path ∈ options.files, ¬ path.contains '\x00') →
        (runWith tools moment disk options).ending = .ok 0 ∨
          (runWith tools moment disk options).ending = .ok 1) ∧
    ((setupOf disk options).Fails disk → (runWith tools moment disk options).printed = "") ∧
    (¬ (setupOf disk options).Fails disk → wantsJson options (settingsOf disk options) = false →
      (runWith tools moment disk options).printed =
        String.join (linesOf tools disk options)) ∧
    (wantsJson options (settingsOf disk options) = true →
      (runWith tools moment disk options).ending = .ok 0 →
        (runWith tools moment disk options).printed =
          Json.render 2 (documentOf tools disk options) ++ "\n") ∧
    (wantsJson options (settingsOf disk options) = true →
      (runWith tools moment disk options).ending ≠ .ok 0 →
        (runWith tools moment disk options).printed = "") := by
  refine ⟨settingsFollow hw, queriesSettle hb, ending_format ht moment, fun hf => ?_,
    fun h ho hn => ?_, fun h => ?_, fun h hj => printed_text ht h hj moment, fun hj he => ?_,
    fun hj he => ?_⟩
  · rw [ending_eq_zero ht moment, succeeds_iff hf]
  · have hb := mt (ending_eq_error ht moment).mp (h.not_breaksOff ho hn)
    exact (ending_cases tools moment disk options).resolve_left hb
  · obtain ⟨-, -, -, hp⟩ := runWith_of_fails h tools moment
    exact hp
  · exact printed_json ht hj ((ending_eq_zero ht moment).mp he) moment
  · exact printed_json_empty ht hj (mt (ending_eq_zero ht moment).mpr he) moment

def fileDisk (bytes : List UInt8) : Disk :=
  (Disk.bare "/home").put ["a.js", "home"] (.file bytes)

set_option maxRecDepth 10000 in
theorem present_fileDisk (bytes : List UInt8) : (fileDisk bytes).present "config.json" = false := by
  cbv

set_option maxRecDepth 10000 in
theorem read_fileDisk (bytes : List UInt8) : (fileDisk bytes).read "a.js" = .ok bytes := by
  cbv

theorem settingsOf_fileDisk (bytes : List UInt8) (hc : options.config = some "config.json") :
    settingsOf (fileDisk bytes) options = defaults := by
  rw [settingsOf, hc, value_openStore_of_absent (present_fileDisk bytes)]

theorem isTyped_defaults : IsTyped defaults where
  consoleLevel := by cbv
  fileLevel := by cbv
  logFile := .inl (by cbv)
  language := by cbv

theorem logFile_fileDisk (bytes : List UInt8) (hc : options.config = some "config.json") :
    (setupOf (fileDisk bytes) options).logFile = .null := by
  rw [setupOf, settingsOf_fileDisk bytes hc]
  cbv

theorem not_fails_fileDisk (bytes : List UInt8) (hc : options.config = some "config.json") :
    ¬ (setupOf (fileDisk bytes) options).Fails (fileDisk bytes) := by
  have ht : IsTyped (settingsOf (fileDisk bytes) options) :=
    settingsOf_fileDisk bytes hc ▸ isTyped_defaults
  refine ht.not_fails ?_
  rw [logFile_fileDisk bytes hc]
  nofun

theorem sourceOf_fileDisk (bytes : List UInt8) (hc : options.config = some "config.json")
    (hl : options.language = none) :
    ∃ language, sourceOf nameTools (fileDisk bytes) options "a.js" =
      .parsed (nameTools.parse language bytes) := by
  have hd : diskOf (fileDisk bytes) options = fileDisk bytes := by
    rw [diskOf, Setup.diskAfter, logFile_fileDisk bytes hc]
  have hj : languageOf options defaults "a.js" = .text "javascript" := by
    rw [languageOf, hl]
    cbv
  rw [sourceOf, sourceAt, hd, read_fileDisk, settingsOf_fileDisk bytes hc, hj]
  exact ⟨_, rfl⟩

def nameDisk : Disk :=
  (Disk.bare "/home").put ["a.js", "home"] (.file [97])

def repeatedOptions : Options :=
  { nameOptions with files := ["a.js", "a.js"] }

theorem not_fails_nameDisk : ¬ (setupOf nameDisk repeatedOptions).Fails nameDisk :=
  not_fails_fileDisk [97] rfl

theorem sourceOf_nameDisk :
    ∃ root, sourceOf nameTools nameDisk repeatedOptions "a.js" = .parsed (.node root) := by
  have hc : repeatedOptions.config = some "config.json" := rfl
  obtain ⟨language, hs⟩ := sourceOf_fileDisk [97] hc rfl
  exact ⟨_, hs⟩

theorem isClassLed_repeatedOptions : IsClassLed repeatedOptions.selector := by
  refine ⟨"name", [], ?_⟩
  cbv

theorem hasWholePairs_nameDisk :
    HasWholePairs nameDisk (pathFrom nameDisk repeatedOptions.config) :=
  hasWholePairs_of_absent (present_fileDisk [97])

theorem modes_agree_nameDisk :
    nameTools.IsSteady ∧
      (∀ tokens, parse repeatedOptions.selector = .ok tokens → ∀ t ∈ tokens, isBounded t = true) ∧
      HasWholePairs nameDisk (pathFrom nameDisk repeatedOptions.config) ∧ ∀ format,
        (runWith nameTools .epoch nameDisk { repeatedOptions with format }).ending = .ok 0 := by
  obtain ⟨-, -, he, hz, -⟩ := modes_agree nameTools_isSteady .epoch nameDisk repeatedOptions
    isBounded_nameOptions hasWholePairs_nameDisk
  have hs : ∀ path ∈ repeatedOptions.files, ∃ root,
      sourceOf nameTools nameDisk repeatedOptions path = .parsed (.node root) := by
    simp only [repeatedOptions, List.forall_mem_cons]
    exact ⟨sourceOf_nameDisk, sourceOf_nameDisk, nofun⟩
  refine ⟨nameTools_isSteady, isBounded_nameOptions, hasWholePairs_nameDisk,
    fun format => (he format).trans ?_⟩
  exact (hz nofun).mpr ⟨not_fails_nameDisk, isClassLed_repeatedOptions, hs⟩

end SyntaxQuery.CommandLine
