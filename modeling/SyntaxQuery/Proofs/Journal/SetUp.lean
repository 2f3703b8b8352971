import SyntaxQuery.Journal.Loggers

namespace SyntaxQuery.Journal

open SyntaxQuery.Disk

namespace Setup

/-- Why nothing can be set up: a level that is no text, or a file that is no path or cannot be
opened. -/
inductive Fails (disk : Disk) (setup : Setup) : Prop where
  | consoleLevel (h : setup.consoleLevel.text? = none)
  | fileLevel (h : setup.fileLevel.text? = none)
  | noPath (hs : setup.logFile.isSet) (h : setup.logFile.text? = none)
  | refused {path : String} {e : Refused} (hf : setup.logFile = .text path) (hs : path ≠ "")
      (ho : (openFile disk path).1 = .error e)

def isNamed (setup : Setup) : Bool :=
  setup.consoleLevel.text?.isSome && setup.fileLevel.text?.isSome

def consoleLeast (setup : Setup) : Level :=
  (setup.consoleLevel.text?.bind Level.ofName?).getD .warning

def fileLeast (setup : Setup) : Level :=
  (setup.fileLevel.text?.bind Level.ofName?).getD .debug

def terminal (setup : Setup) : Logger :=
  ⟨some (if setup.logFile.isSet then setup.consoleLeast.lower setup.fileLeast
      else setup.consoleLeast),
    [⟨.console, setup.consoleLeast, .console (setup.colored.getD false)⟩]⟩

def withFile (setup : Setup) (path : String) : Logger :=
  ⟨setup.terminal.least, setup.terminal.handlers ++ [⟨.file path, setup.fileLeast, .file⟩]⟩

def diskAfter (disk : Disk) (setup : Setup) : Disk :=
  match setup.logFile with
  | .text path => if path = "" then disk else (openFile disk path).2
  | _ => disk

theorem path_of_unset {setup : Setup} (hs : setup.logFile.isSet = false) {path : String}
    (hf : setup.logFile = .text path) : path = "" := by
  rw [hf] at hs
  exact Decidable.not_not.mp (of_decide_eq_false hs)

theorem diskAfter_of_unset {setup : Setup} (hs : setup.logFile.isSet = false) (disk : Disk) :
    setup.diskAfter disk = disk := by
  rw [diskAfter]
  split
  · exact if_pos (path_of_unset hs ‹_›)
  · rfl

theorem not_fails {disk : Disk} {setup : Setup} {console file : String}
    (hc : setup.consoleLevel.text? = some console) (hf : setup.fileLevel.text? = some file)
    (hl : setup.logFile.isSet → setup.logFile.text? ≠ none)
    (ho : ∀ path, setup.logFile = .text path → path ≠ "" →
      ∃ there, (openFile disk path).1 = .ok there) : ¬ setup.Fails disk := by
  intro hn
  cases hn with
  | consoleLevel h => rw [hc] at h; cases h
  | fileLevel h => rw [hf] at h; cases h
  | noPath hs h => exact hl hs h
  | refused hp hs h =>
    obtain ⟨there, ht⟩ := ho _ hp hs
    rw [ht] at h
    cases h

theorem named_iff {setup : Setup} :
    setup.isNamed = true ↔
      ∃ console file, setup.consoleLevel.text? = some console ∧
        setup.fileLevel.text? = some file := by
  rw [isNamed, Bool.and_eq_true, Option.isSome_iff_exists, Option.isSome_iff_exists]
  constructor
  · rintro ⟨⟨console, hc⟩, file, hf⟩
    exact ⟨console, file, hc, hf⟩
  · rintro ⟨console, file, hc, hf⟩
    exact ⟨⟨console, hc⟩, file, hf⟩

theorem fails_of_unnamed {setup : Setup} (h : setup.isNamed = false) (disk : Disk) :
    setup.Fails disk := by
  cases hc : setup.consoleLevel.text? with
  | none => exact .consoleLevel hc
  | some console =>
    cases hf : setup.fileLevel.text? with
    | none => exact .fileLevel hf
    | some file =>
      rw [named_iff.mpr ⟨console, file, hc, hf⟩] at h
      cases h

end Setup

theorem levelFrom_of_text? {value : Json} {name : String} (h : value.text? = some name)
    (fallback : Level) :
    levelFrom fallback value = .ok ((Level.ofName? name).getD fallback) := by
  cases value with
  | text s =>
    obtain rfl := Option.some.inj h
    rfl
  | _ => cases h

theorem levelFrom_of_text?_none {value : Json} (h : value.text? = none) (fallback : Level) :
    levelFrom fallback value = .error (.level value.typeName) := by
  cases value with
  | text s => cases h
  | _ => rfl

namespace Outlets

variable {outlets : Outlets} {setup : Setup}

theorem emit_unset (h : outlets.loggers = []) (level : Level) (r : Record) :
    (outlets.emit level r).loggers = [] ∧ (outlets.emit level r).disk = outlets.disk := by
  have hc : (outlets.chain r.source).flatMap Logger.handlers = [] := by
    have hn : (lineage r.source).filterMap outlets.loggers.find? = [] := by
      rw [h]
      exact List.filterMap_eq_nil_iff.mpr fun _ _ => rfl
    rw [chain, hn]
    rfl
  rw [emit, hc]
  split
  · dsimp only
    split
    · exact ⟨h, rfl⟩
    · exact ⟨h, rfl⟩
  · exact ⟨h, rfl⟩

theorem emitAll_unset (h : outlets.loggers = []) (moment : Moment) (entries : List Entry) :
    (outlets.emitAll moment entries).loggers = [] ∧
      (outlets.emitAll moment entries).disk = outlets.disk := by
  induction entries generalizing outlets with
  | nil => exact ⟨h, rfl⟩
  | cons entry rest ih =>
    obtain ⟨hl, hd⟩ := emit_unset h entry.level
      ⟨moment, entry.level.name, entry.source, entry.source, 0, entry.message⟩
    obtain ⟨hl', hd'⟩ := ih hl
    exact ⟨hl', hd'.trans hd⟩

def onDisk (outlets : Outlets) (disk : Disk) : Outlets :=
  { outlets with disk := disk }

theorem disk_onDisk (outlets : Outlets) (disk : Disk) : (outlets.onDisk disk).disk = disk := rfl

theorem logger_onDisk (outlets : Outlets) (disk : Disk) (source : String) :
    (outlets.onDisk disk).logger source = outlets.logger source := rfl

theorem putLogger_onDisk (outlets : Outlets) (disk : Disk) (source : String) (logger : Logger) :
    (outlets.putLogger source logger).onDisk disk =
      (outlets.onDisk disk).putLogger source logger := rfl

theorem disk_putLogger (outlets : Outlets) (source : String) (logger : Logger) :
    (outlets.putLogger source logger).disk = outlets.disk := rfl

theorem logger_putLogger_self (outlets : Outlets) (source : String) (logger : Logger) :
    (outlets.putLogger source logger).logger source = logger := by
  rw [Outlets.logger, putLogger, Table.find?_put_self]
  rfl

theorem logger_putLogger_of_ne {source other : String} (h : source ≠ other) (outlets : Outlets)
    (logger : Logger) : (outlets.putLogger source logger).logger other = outlets.logger other := by
  rw [Outlets.logger, putLogger, Table.find?_put_of_ne h]
  rfl

theorem addFile_of_error {path : String} {e : Refused}
    (h : (openFile outlets.disk path).1 = .error e) (source : String) (least : Level) :
    outlets.addFile source path least =
      (.error (.refused e), outlets.onDisk (openFile outlets.disk path).2) := by
  rw [addFile]
  generalize openFile outlets.disk path = opened at h ⊢
  obtain ⟨found, disk⟩ := opened
  obtain rfl : found = .error e := h
  rfl

theorem addFile_of_ok {path there : String} (h : (openFile outlets.disk path).1 = .ok there)
    (source : String) (least : Level) :
    outlets.addFile source path least =
      (.ok (), (outlets.onDisk (openFile outlets.disk path).2).putLogger source
        (.mk (outlets.logger source).least
          ((outlets.logger source).handlers ++ [Handler.mk (.file there) least .file]))) := by
  rw [addFile]
  generalize openFile outlets.disk path = opened at h ⊢
  obtain ⟨found, disk⟩ := opened
  obtain rfl : found = .ok there := h
  rfl

theorem handlers_unset (h : outlets.loggers = []) (source : String) :
    (outlets.logger source).handlers = [] := by
  rw [logger, h]
  rfl

/-- How a set-up goes where nothing is set up yet. -/
inductive Course (outlets : Outlets) (setup : Setup) : Except Unfit Unit → Outlets → Prop where
  | unnamed {typeName : String} (h : setup.isNamed = false) :
      Course outlets setup (.error (.level typeName)) outlets
  | terminal (h : setup.isNamed = true) (hs : setup.logFile.isSet = false) :
      Course outlets setup (.ok ()) (outlets.putLogger setup.source setup.terminal)
  | noPath (h : setup.isNamed = true) (hs : setup.logFile.isSet = true)
      (ht : setup.logFile.text? = none) :
      Course outlets setup (.error (.file setup.logFile.typeName))
        (outlets.putLogger setup.source setup.terminal)
  | refused (h : setup.isNamed = true) {path : String} {e : Refused}
      (hf : setup.logFile = .text path) (hs : path ≠ "")
      (ho : (openFile outlets.disk path).1 = .error e) :
      Course outlets setup (.error (.refused e))
        ((outlets.onDisk (openFile outlets.disk path).2).putLogger setup.source setup.terminal)
  | whole (h : setup.isNamed = true) {path there : String} (hf : setup.logFile = .text path)
      (hs : path ≠ "") (ho : (openFile outlets.disk path).1 = .ok there) :
      Course outlets setup (.ok ())
        (((outlets.onDisk (openFile outlets.disk path).2).putLogger setup.source
          setup.terminal).putLogger setup.source (setup.withFile there))

theorem setUp_of_named (hn : (outlets.logger setup.source).handlers = [])
    (h : setup.isNamed = true) :
    outlets.setUp setup =
      if setup.logFile.isSet then
        match setup.logFile with
        | .text path =>
          (outlets.putLogger setup.source setup.terminal).addFile setup.source path setup.fileLeast
        | value =>
          (.error (.file value.typeName), outlets.putLogger setup.source setup.terminal)
      else (.ok (), outlets.putLogger setup.source setup.terminal) := by
  obtain ⟨console, file, hc, hf⟩ := Setup.named_iff.mp h
  rw [setUp, hn, levelFrom_of_text? hc, levelFrom_of_text? hf, Setup.terminal, Setup.consoleLeast,
    Setup.fileLeast, hc, hf]
  rfl

theorem setUp_of_unnamed (hn : (outlets.logger setup.source).handlers = [])
    (h : setup.isNamed = false) :
    ∃ typeName, outlets.setUp setup = (.error (.level typeName), outlets) := by
  rw [setUp, hn]
  cases hc : setup.consoleLevel.text? with
  | none =>
    rw [levelFrom_of_text?_none hc]
    exact ⟨_, rfl⟩
  | some console =>
    cases hf : setup.fileLevel.text? with
    | none =>
      rw [levelFrom_of_text? hc, levelFrom_of_text?_none hf]
      exact ⟨_, rfl⟩
    | some file =>
      rw [Setup.named_iff.mpr ⟨console, file, hc, hf⟩] at h
      cases h

theorem course_setUp (hn : (outlets.logger setup.source).handlers = []) :
    Course outlets setup (outlets.setUp setup).1 (outlets.setUp setup).2 := by
  cases h : setup.isNamed with
  | false =>
    obtain ⟨typeName, he⟩ := setUp_of_unnamed hn h
    rw [he]
    exact .unnamed h
  | true =>
    rw [setUp_of_named hn h]
    by_cases hs : setup.logFile.isSet = true
    · rw [if_pos hs]
      cases hf : setup.logFile with
      | text path =>
        have hp : path ≠ "" := by
          rintro rfl
          rw [hf] at hs
          cases hs
        cases ho : (openFile (outlets.putLogger setup.source setup.terminal).disk path).1 with
        | error e =>
          dsimp only
          rw [addFile_of_error ho, disk_putLogger, putLogger_onDisk]
          rw [disk_putLogger] at ho
          exact .refused h hf hp ho
        | ok there =>
          dsimp only
          rw [addFile_of_ok ho, disk_putLogger, putLogger_onDisk, logger_putLogger_self]
          rw [disk_putLogger] at ho
          exact .whole h hf hp ho
      | _ =>
        have hc : Course outlets setup _ _ := .noPath h hs (by rw [hf]; rfl)
        rwa [hf] at hc
    · rw [if_neg hs]
      exact .terminal h (Bool.not_eq_true _ ▸ hs)

/-- A set-up where nothing is set up yet fails as it is said to, or else its file is open. -/
theorem Course.fails_or_opens {result : Except Unfit Unit} {outlets' : Outlets}
    (hc : Course outlets setup result outlets') :
    ((∃ e, result = .error e) ∧ setup.Fails outlets.disk) ∨
      (result = .ok () ∧ ¬ setup.Fails outlets.disk ∧
        outlets'.disk = setup.diskAfter outlets.disk) := by
  cases hc with
  | unnamed h => exact .inl ⟨⟨_, rfl⟩, Setup.fails_of_unnamed h _⟩
  | terminal h hs =>
    obtain ⟨console, file, hc, hf⟩ := Setup.named_iff.mp h
    refine .inr ⟨rfl, Setup.not_fails hc hf (fun hl => ?_) fun path hp hne => ?_, ?_⟩
    · rw [hl] at hs
      cases hs
    · exact absurd (Setup.path_of_unset hs hp) hne
    · exact (Setup.diskAfter_of_unset hs _).symm
  | noPath h hs ht => exact .inl ⟨⟨_, rfl⟩, .noPath hs ht⟩
  | refused h hf hs ho => exact .inl ⟨⟨_, rfl⟩, .refused hf hs ho⟩
  | whole h hf hs ho =>
    obtain ⟨console, file, hc, hl⟩ := Setup.named_iff.mp h
    refine .inr ⟨rfl, Setup.not_fails hc hl (fun _ ht => ?_) fun path hp _ => ?_, ?_⟩
    · rw [hf] at ht
      cases ht
    · obtain rfl := Json.text.inj (hf.symm.trans hp)
      exact ⟨_, ho⟩
    · rw [disk_putLogger, disk_putLogger, disk_onDisk, Setup.diskAfter, hf]
      exact (if_neg hs).symm

theorem setUp_unset (h : outlets.loggers = []) (setup : Setup) :
    ((∃ e, (outlets.setUp setup).1 = .error e) ∧ setup.Fails outlets.disk) ∨
      ((outlets.setUp setup).1 = .ok () ∧ ¬ setup.Fails outlets.disk ∧
        (outlets.setUp setup).2.disk = setup.diskAfter outlets.disk) :=
  (course_setUp (handlers_unset h _)).fails_or_opens

end Outlets

end SyntaxQuery.Journal
