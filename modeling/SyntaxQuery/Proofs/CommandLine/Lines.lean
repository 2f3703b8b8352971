import SyntaxQuery.Proofs.CommandLine.Modes
import SyntaxQuery.Proofs.Number.Shortest
import SyntaxQuery.Proofs.Text.Lines

namespace SyntaxQuery

open SyntaxQuery.Number

theorem Scalar.lineEnd_mem_display {v : Scalar} :
    '\n' ∈ v.display.toList ↔ ∃ s, v = .text s ∧ '\n' ∈ s.toList := by
  have hn : ¬ ' ' < '\n' := by decide
  cases v with
  | text s => simp [display]
  | integer n =>
    rw [display, String.toList_ofList]
    exact iff_of_false (fun h => hn (lt_of_mem_decimal n _ h)) nofun
  | real x =>
    rw [display, String.toList_ofList]
    exact iff_of_false (fun h => hn (x.lt_of_mem_text _ h)) nofun
  | truth b => cases b <;> exact iff_of_false (by decide) nofun

end SyntaxQuery

namespace SyntaxQuery.CommandLine

open SyntaxQuery.Disk SyntaxQuery.Journal SyntaxQuery.Number SyntaxQuery.Query SyntaxQuery.Selector
open SyntaxQuery.Settings SyntaxQuery.Text SyntaxQuery.Tree

/-- A result that is shown on several lines: a text with a line end, or a node with one in its kind
or its text. -/
inductive SpansLines : Match → Prop
  | value {s : String} (h : '\n' ∈ s.toList) : SpansLines (.value (.text s))
  | kind {n : Located} (h : '\n' ∈ n.kind.toList) : SpansLines (.node n)
  | text {n : Located} {s : String} (ht : n.label.text = some s) (h : '\n' ∈ s.toList) :
    SpansLines (.node n)

def listed (results : List (String × List Match)) : List (String × Match) :=
  results.flatMap fun (path, found) => found.map (path, ·)

/-- What is shown of a result: its text, behind the path of its file if there are several. -/
def shown (several : Bool) (entry : String × Match) : String :=
  (if several then entry.1 ++ ": " else "") ++ resultText entry.2

def IsBroken (several : Bool) (entry : String × Match) : Prop :=
  several = true ∧ '\n' ∈ entry.1.toList ∨ SpansLines entry.2

variable {tools : Toolbox} {disk : Disk} {options : Options}

theorem toList_toString (n : Int) : (toString n).toList = decimal n := by
  cases n with
  | ofNat n => exact Nat.toList_repr
  | negSucc n =>
    have hs : toString (Int.negSucc n) = "-" ++ (n + 1).repr := rfl
    rw [hs, String.toList_append, Nat.toList_repr]
    rfl

theorem lineEnd_not_mem_pointText (p : Point) : '\n' ∉ (pointText p).toList := by
  have hd : ∀ n, '\n' ∉ decimal n := fun n h => absurd (lt_of_mem_decimal n _ h) (by decide)
  rw [pointText, String.toList_append, String.toList_append, toList_toString, toList_toString]
  simp [hd]

theorem lineEnd_mem_resultText (result : Match) :
    '\n' ∈ (resultText result).toList ↔ SpansLines result := by
  cases result with
  | value v =>
    rw [resultText, Scalar.lineEnd_mem_display]
    constructor
    · rintro ⟨s, rfl, h⟩
      exact .value h
    · rintro ⟨h⟩
      exact ⟨_, rfl, h⟩
  | node n =>
    have hm : '\n' ∈ (resultText (.node n)).toList ↔
        '\n' ∈ n.kind.toList ∨ '\n' ∈ (n.label.text.getD "None").toList := by
      simp [resultText, lineEnd_not_mem_pointText]
    rw [hm]
    constructor
    · rintro (h | h)
      · exact .kind h
      · cases ht : n.label.text with
        | none => simp [ht] at h
        | some s => exact .text ht (by simpa [ht] using h)
    · rintro (h | h | ⟨ht, h⟩)
      · exact .inl h
      · rw [ht]
        exact .inr h

theorem lineEnd_mem_shown (several : Bool) (entry : String × Match) :
    '\n' ∈ (shown several entry).toList ↔ IsBroken several entry := by
  rw [shown, IsBroken, String.toList_append, List.mem_append, lineEnd_mem_resultText]
  cases several with
  | true => simp
  | false => simp

theorem textOutput_eq (several : Bool) (results : List (String × List Match)) :
    textOutput several results =
      String.join (((listed results).map (shown several)).map (· ++ "\n")) := by
  rw [textOutput, listed, List.map_flatMap, List.map_flatMap]
  simp [Function.comp_def, shown]

/-- In text mode a run prints its results in order. Each takes up one line, and one more for each
line end in what is shown of it; so there is one line for each result, and it shows that result,
exactly if none is broken. -/
theorem results_line_by_line (ht : tools.IsSteady) (h : ¬ (setupOf disk options).Fails disk)
    (hj : wantsJson options (settingsOf disk options) = false) (moment : Moment) :
    (runWith tools moment disk options).printed =
        textOutput (options.files.length > 1) (resultsOf tools disk options) ∧
      ∀ (several : Bool) (results : List (String × List Match)),
        lines (textOutput several results) =
            (listed results).flatMap (fun entry => splitPieces '\n' (shown several entry)) ∧
          (lines (textOutput several results)).length = (listed results).length +
            ((listed results).map fun entry => (shown several entry).toList.count '\n').sum ∧
          (lines (textOutput several results) = (listed results).map (shown several) ↔
            ∀ entry ∈ listed results, ¬ IsBroken several entry) ∧
          ((lines (textOutput several results)).length = (listed results).length ↔
            ∀ entry ∈ listed results, ¬ IsBroken several entry) := by
  refine ⟨(printed_text ht h hj moment).trans (textOutput_resultsOf _ _ _).symm, ?_⟩
  intro several results
  -- The lines are the pieces of all that is shown, so they are counted text by text.
  have hl : lines (textOutput several results) =
      ((listed results).map (shown several)).flatMap (splitPieces '\n') := by
    rw [textOutput_eq, lines_join]
  have hb : (∀ s ∈ (listed results).map (shown several), '\n' ∉ s.toList) ↔
      ∀ entry ∈ listed results, ¬ IsBroken several entry := by
    simp only [List.forall_mem_map, lineEnd_mem_shown]
  have hc : ((listed results).map (shown several)).length = (listed results).length :=
    List.length_map _
  refine ⟨?_, ?_, ?_, ?_⟩
  · rw [hl, List.flatMap_map]
  · rw [hl, length_flatMap_splitPieces, hc, List.map_map]
    rfl
  · rw [hl, flatMap_splitPieces_eq_iff, hb]
  · rw [hl, ← hc, length_flatMap_splitPieces_eq_iff, hb]

def textOptions : Options :=
  { nameOptions with selector := ".name::text" }

theorem parse_textOptions :
    parse textOptions.selector = .ok [.className "name", .pseudoElement "text"] := by
  cbv

theorem resultsOf_twoLines :
    resultsOf nameTools (fileDisk [97, 10, 98]) textOptions =
      [("a.js", [.value (.text "a\nb")])] := by
  have hc : textOptions.config = some "config.json" := rfl
  obtain ⟨language, hs⟩ := sourceOf_fileDisk [97, 10, 98] hc rfl
  have ha : answerOf? nameTools (fileDisk [97, 10, 98]) textOptions "a.js" =
      some [.value (.text "a\nb")] := by
    rw [answerOf?, hs, Source.answer?_eq parse_textOptions]
    cbv
  have hf : textOptions.files = ["a.js"] := rfl
  rw [resultsOf, hf, List.takeWhile_cons, ha]
  simp [ha]

theorem one_result_on_two_lines :
    nameTools.IsSteady ∧
      ¬ (setupOf (fileDisk [97, 10, 98]) textOptions).Fails (fileDisk [97, 10, 98]) ∧
      wantsJson textOptions (settingsOf (fileDisk [97, 10, 98]) textOptions) = false ∧
      listed (resultsOf nameTools (fileDisk [97, 10, 98]) textOptions) =
        [("a.js", .value (.text "a\nb"))] ∧
      lines (runWith nameTools .epoch (fileDisk [97, 10, 98]) textOptions).printed = ["a", "b"] := by
  have hf : ¬ (setupOf (fileDisk [97, 10, 98]) textOptions).Fails (fileDisk [97, 10, 98]) :=
    not_fails_fileDisk _ rfl
  have hj : wantsJson textOptions (settingsOf (fileDisk [97, 10, 98]) textOptions) = false := by
    rw [settingsOf_fileDisk _ rfl]
    cbv
  obtain ⟨hp, hl⟩ := results_line_by_line nameTools_isSteady hf hj .epoch
  refine ⟨nameTools_isSteady, hf, hj, ?_, ?_⟩
  · rw [resultsOf_twoLines]
    rfl
  · rw [hp, (hl _ _).1, resultsOf_twoLines]
    cbv

end SyntaxQuery.CommandLine
