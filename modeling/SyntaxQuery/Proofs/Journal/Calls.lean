import Mathlib
import SyntaxQuery.Proofs.Journal.SetUp

namespace SyntaxQuery.Journal

open SyntaxQuery.Disk

structure Call where
  disk : Disk
  setup : Setup

namespace Setup

def fileHandler? (disk : Disk) (setup : Setup) : Option Handler :=
  match setup.logFile with
  | .text path =>
    if path = "" then none
    else (openFile disk path).1.toOption.map fun there => ⟨.file there, setup.fileLeast, .file⟩
  | _ => none

/-- What a call leaves of a source for which nothing is set up yet. -/
def left (disk : Disk) (setup : Setup) : Logger :=
  ⟨setup.terminal.least, setup.terminal.handlers ++ (setup.fileHandler? disk).toList⟩

variable {disk : Disk} {setup : Setup}

theorem left_of_no_file (h : setup.fileHandler? disk = none) :
    setup.left disk = setup.terminal := by
  rw [left, h]
  exact congrArg (Logger.mk _) (List.append_nil _)

theorem left_of_unset (hs : setup.logFile.isSet = false) : setup.left disk = setup.terminal := by
  apply left_of_no_file
  rw [fileHandler?]
  split
  · exact if_pos (path_of_unset hs ‹_›)
  · rfl

theorem left_of_fails (h : setup.isNamed = true) (hf : setup.Fails disk) :
    setup.left disk = setup.terminal := by
  obtain ⟨console, file, hc, hl⟩ := named_iff.mp h
  apply left_of_no_file
  cases hf with
  | consoleLevel hn => rw [hc] at hn; cases hn
  | fileLevel hn => rw [hl] at hn; cases hn
  | noPath hs hn =>
    rw [fileHandler?]
    split
    · next hp =>
      rw [hp] at hn
      cases hn
    · rfl
  | refused hp hs ho =>
    rw [fileHandler?, hp]
    dsimp only
    rw [if_neg hs, ho]
    rfl

theorem left_of_opens {path there : String} (hf : setup.logFile = .text path) (hs : path ≠ "")
    (ho : (openFile disk path).1 = .ok there) : setup.left disk = setup.withFile there := by
  rw [left, fileHandler?, hf]
  dsimp only
  rw [if_neg hs, ho]
  rfl

theorem left_handlers_ne_nil : (setup.left disk).handlers ≠ [] :=
  List.cons_ne_nil _ _

end Setup

namespace Outlets

variable {outlets : Outlets} {setup : Setup} {source : String}

theorem setUp_of_settled (h : (outlets.logger setup.source).handlers ≠ []) :
    outlets.setUp setup = (.ok (), outlets) := by
  rw [setUp, if_pos]
  rw [Bool.not_eq_true', List.isEmpty_eq_false_iff]
  exact h

namespace Course

variable {result : Except Unfit Unit} {outlets' : Outlets}
  (hc : Course outlets setup result outlets')

include hc

theorem logger_of_ne (h : setup.source ≠ source) :
    outlets'.logger source = outlets.logger source := by
  cases hc with
  | unnamed _ => rfl
  | terminal _ _ => rw [logger_putLogger_of_ne h]
  | noPath _ _ _ => rw [logger_putLogger_of_ne h]
  | refused _ _ _ _ => rw [logger_putLogger_of_ne h, logger_onDisk]
  | whole _ _ _ _ => rw [logger_putLogger_of_ne h, logger_putLogger_of_ne h, logger_onDisk]

theorem eq_of_unnamed (h : setup.isNamed = false) : outlets' = outlets := by
  cases hc with
  | unnamed _ => rfl
  | _ hn => simp [h] at hn

theorem logger_of_named (h : setup.isNamed = true) :
    outlets'.logger setup.source = setup.left outlets.disk := by
  cases hc with
  | unnamed hn => simp [h] at hn
  | terminal _ hs => rw [logger_putLogger_self, Setup.left_of_unset hs]
  | noPath _ hs ht => rw [logger_putLogger_self, Setup.left_of_fails h (.noPath hs ht)]
  | refused _ hf hs ho => rw [logger_putLogger_self, Setup.left_of_fails h (.refused hf hs ho)]
  | whole _ hf hs ho => rw [logger_putLogger_self, Setup.left_of_opens hf hs ho]

theorem logger_of_error {e : Unfit} (he : result = .error e) :
    setup.isNamed = false ∧ outlets' = outlets ∨
      setup.isNamed = true ∧ outlets'.logger setup.source = setup.terminal := by
  cases hc with
  | unnamed h => exact .inl ⟨h, rfl⟩
  | terminal _ _ => cases he
  | noPath h _ _ => exact .inr ⟨h, logger_putLogger_self _ _ _⟩
  | refused h _ _ _ => exact .inr ⟨h, logger_putLogger_self _ _ _⟩
  | whole _ _ _ _ => cases he

end Course

def call (outlets : Outlets) (c : Call) : Except Unfit Unit × Outlets :=
  (outlets.onDisk c.disk).setUp c.setup

def after (outlets : Outlets) (calls : List Call) : Outlets :=
  calls.foldl (fun outlets call => (outlets.call call).2) outlets

theorem call_of_settled {c : Call} (h : (outlets.logger c.setup.source).handlers ≠ []) :
    outlets.call c = (.ok (), outlets.onDisk c.disk) :=
  setUp_of_settled h

theorem course_call {c : Call} (hn : (outlets.logger c.setup.source).handlers = []) :
    Course (outlets.onDisk c.disk) c.setup (outlets.call c).1 (outlets.call c).2 :=
  course_setUp hn

theorem logger_call (outlets : Outlets) (c : Call) (source : String)
    (h : (outlets.logger source).handlers ≠ [] ∨ c.setup.source ≠ source ∨
      c.setup.isNamed = false) :
    (outlets.call c).2.logger source = outlets.logger source := by
  by_cases hs : c.setup.source = source
  · subst hs
    by_cases hn : (outlets.logger c.setup.source).handlers = []
    · obtain h | h | h := h
      · exact absurd hn h
      · exact absurd rfl h
      · rw [(course_call hn).eq_of_unnamed h, logger_onDisk]
    · rw [call_of_settled hn, logger_onDisk]
  · by_cases hn : (outlets.logger c.setup.source).handlers = []
    · rw [(course_call hn).logger_of_ne hs, logger_onDisk]
    · rw [call_of_settled hn, logger_onDisk]

theorem logger_after_of_settled (h : (outlets.logger source).handlers ≠ []) (calls : List Call) :
    (outlets.after calls).logger source = outlets.logger source := by
  induction calls generalizing outlets with
  | nil => rfl
  | cons c calls ih =>
    have hc := logger_call outlets c source (.inl h)
    exact (ih (hc ▸ h)).trans hc

theorem logger_after_of_unnamed (outlets : Outlets) {calls : List Call}
    (h : ∀ c ∈ calls, c.setup.source = source → c.setup.isNamed = false) :
    (outlets.after calls).logger source = outlets.logger source := by
  induction calls generalizing outlets with
  | nil => rfl
  | cons c calls ih =>
    obtain ⟨hh, ht⟩ := List.forall_mem_cons.mp h
    have hc := logger_call outlets c source (.inr (Decidable.not_or_of_imp hh))
    exact (ih _ ht).trans hc

theorem after_append (outlets : Outlets) (front : List Call) (c : Call) (back : List Call) :
    outlets.after (front ++ c :: back) = ((outlets.after front).call c).2.after back := by
  rw [after, List.foldl_append, List.foldl_cons]
  rfl

/-- The first call for a source that gets past its levels decides what is set up for it. -/
theorem logger_after_of_first (hn : (outlets.logger source).handlers = []) {front : List Call}
    (hf : ∀ c ∈ front, c.setup.source = source → c.setup.isNamed = false) {c : Call}
    (hs : c.setup.source = source) (h : c.setup.isNamed = true) (back : List Call) :
    (outlets.after (front ++ c :: back)).logger source = c.setup.left c.disk := by
  subst hs
  have he := logger_after_of_unnamed outlets hf
  have hl : ((outlets.after front).call c).2.logger c.setup.source = c.setup.left c.disk :=
    (course_call (he ▸ hn)).logger_of_named h
  rw [after_append, logger_after_of_settled, hl]
  rw [hl]
  exact Setup.left_handlers_ne_nil

/-- A set-up that fails at its file leaves the terminal and the level behind, and these count as
set up from then on: later calls return and do nothing. Over any calls it is the first one past its
levels that decides, whether it returns or not. -/
theorem setUp_stops_halfway (outlets : Outlets) (source : String) :
    (∀ setup : Setup, setup.source = source →
      ((∃ e, (outlets.setUp setup).1 = .error e) ↔
        (outlets.logger source).handlers = [] ∧ setup.Fails outlets.disk) ∧
      ∀ e, (outlets.setUp setup).1 = .error e →
        setup.isNamed = false ∧ (outlets.setUp setup).2 = outlets ∨
        setup.isNamed = true ∧ (outlets.setUp setup).2.logger source = setup.terminal ∧
          ∀ c : Call, c.setup.source = source →
            (outlets.setUp setup).2.call c = (.ok (), (outlets.setUp setup).2.onDisk c.disk)) ∧
    ((outlets.logger source).handlers ≠ [] →
      ∀ calls, (outlets.after calls).logger source = outlets.logger source) ∧
    ((outlets.logger source).handlers = [] →
      ∀ front : List Call, (∀ c ∈ front, c.setup.source = source → c.setup.isNamed = false) →
        (outlets.after front).logger source = outlets.logger source ∧
        ∀ c back, c.setup.source = source → c.setup.isNamed = true →
          ((outlets.after front).call c).1 = .ok () ∧ ¬ c.setup.Fails c.disk ∧
              (outlets.after (front ++ c :: back)).logger source = c.setup.left c.disk ∨
            (∃ e, ((outlets.after front).call c).1 = .error e) ∧ c.setup.Fails c.disk ∧
              (outlets.after (front ++ c :: back)).logger source = c.setup.terminal) := by
  refine ⟨?_, logger_after_of_settled, ?_⟩
  · rintro setup rfl
    by_cases hn : (outlets.logger setup.source).handlers = []
    · have hc := course_setUp hn
      refine ⟨?_, fun e he => ?_⟩
      · obtain ⟨hr, hw⟩ | ⟨hr, hw, -⟩ := hc.fails_or_opens
        · exact ⟨fun _ => ⟨hn, hw⟩, fun _ => hr⟩
        · simp [hr, hw]
      · obtain ⟨h, hl⟩ | ⟨h, hl⟩ := hc.logger_of_error he
        · exact .inl ⟨h, hl⟩
        · refine .inr ⟨h, hl, fun c hs => call_of_settled ?_⟩
          rw [hs, hl]
          exact List.cons_ne_nil _ _
    · rw [setUp_of_settled hn]
      simp [hn]
  · intro hn front hf
    refine ⟨logger_after_of_unnamed outlets hf, fun c back hs h => ?_⟩
    have hl := logger_after_of_first hn hf hs h back
    have he := logger_after_of_unnamed outlets hf
    have hc := course_call (c := c) (hs ▸ he ▸ hn)
    obtain ⟨hr, hw⟩ | ⟨hr, hw, -⟩ := hc.fails_or_opens
    · exact .inr ⟨hr, hw, hl.trans (Setup.left_of_fails h hw)⟩
    · exact .inl ⟨hr, hw, hl⟩

def oneFile : Outlets :=
  ⟨[], ⟨"/", "/", [("/run.log", .file [])], []⟩, ""⟩

def belowFile : Setup :=
  { Setup.standard with logFile := .text "run.log/b.log", component := some "b" }

def besideFile : Setup :=
  { belowFile with logFile := .text "b.log" }

theorem refused_belowFile :
    (openFile oneFile.disk "run.log/b.log").1 = .error ⟨.taken, "run.log"⟩ := by
  cbv

theorem opened_besideFile : (openFile oneFile.disk "b.log").1 = .ok "/b.log" := by
  cbv

theorem belowFile_stops_halfway :
    (∃ e, (oneFile.setUp belowFile).1 = .error e) ∧ ¬ besideFile.Fails oneFile.disk ∧
      (oneFile.after [⟨oneFile.disk, belowFile⟩, ⟨oneFile.disk, besideFile⟩]).logger
        "tree_selector.b" = belowFile.terminal := by
  have hf : belowFile.Fails oneFile.disk :=
    .refused rfl (by decide) refused_belowFile
  obtain ⟨h, -, hc⟩ := setUp_stops_halfway oneFile "tree_selector.b"
  have he := (h belowFile rfl).1.mpr ⟨rfl, hf⟩
  refine ⟨he, Setup.not_fails rfl rfl nofun ?_, ?_⟩
  · rintro path ⟨⟩ -
    exact ⟨_, opened_besideFile⟩
  · obtain ⟨-, hc⟩ := hc rfl [] (List.forall_mem_nil _)
    obtain ⟨-, hn, -⟩ | ⟨-, -, hl⟩ :=
      hc ⟨oneFile.disk, belowFile⟩ [⟨oneFile.disk, besideFile⟩] rfl rfl
    · exact absurd hf hn
    · exact hl

end Outlets

end SyntaxQuery.Journal
