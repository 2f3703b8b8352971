import SyntaxQuery.Proofs.Text.Pieces
import SyntaxQuery.Query.Comparison

namespace SyntaxQuery.Query

open SyntaxQuery.Journal SyntaxQuery.Text

namespace Operator

/-- Where an operator asks for a literal in a value, by what stands before and behind it there. -/
def Stands (operator : Operator) (before literal behind : List Char) : Prop :=
  match operator with
  | equal => before = [] ∧ behind = []
  | word => ' ' ∉ literal ∧ (before = [] ∨ [' '] <:+ before) ∧ (behind = [] ∨ [' '] <+: behind)
  | dash => before = [] ∧ (behind = [] ∨ '-' ∉ literal ∧ ['-'] <+: behind)
  | starts => before = []
  | ends => behind = []
  | holds => True

/-- A comparison of texts looks for the literal at the places of its operator. -/
theorem compareText_iff {operator : Operator} {value literal : List Char} :
    operator.compareText value literal = true ↔
      ∃ before behind, operator.Stands before literal behind ∧
        value = before ++ literal ++ behind := by
  cases operator with
  | equal =>
    rw [compareText, decide_eq_true_iff]
    constructor
    · rintro rfl
      exact ⟨[], [], ⟨rfl, rfl⟩, by simp⟩
    · rintro ⟨_, _, ⟨rfl, rfl⟩, h⟩
      simpa using h
  | word =>
    rw [compareText, List.contains_iff_mem, mem_pieces]
    constructor
    · rintro ⟨hl, before, behind, h, ha, hb⟩
      exact ⟨before, behind, ⟨hl, ha, hb⟩, h⟩
    · rintro ⟨before, behind, ⟨hl, ha, hb⟩, h⟩
      exact ⟨hl, before, behind, h, ha, hb⟩
  | dash =>
    rw [compareText, Bool.or_eq_true, decide_eq_true_iff, decide_eq_true_iff, head?_pieces]
    constructor
    · rintro (rfl | ⟨hl, behind, rfl, hb⟩)
      · exact ⟨[], [], ⟨rfl, .inl rfl⟩, by simp⟩
      · exact ⟨[], behind, ⟨rfl, hb.imp_right fun hb => ⟨hl, hb⟩⟩, rfl⟩
    · rintro ⟨_, behind, ⟨rfl, hb⟩, rfl⟩
      obtain rfl | ⟨hl, hb⟩ := hb
      · exact .inl (by simp)
      · exact .inr ⟨hl, behind, rfl, .inr hb⟩
  | starts =>
    rw [compareText, List.isPrefixOf_iff_prefix]
    constructor
    · rintro ⟨behind, rfl⟩
      exact ⟨[], behind, rfl, rfl⟩
    · rintro ⟨_, behind, rfl, rfl⟩
      exact ⟨behind, rfl⟩
  | ends =>
    rw [compareText, List.isSuffixOf_iff_suffix]
    constructor
    · rintro ⟨before, rfl⟩
      exact ⟨before, [], rfl, (List.append_nil _).symm⟩
    · rintro ⟨before, _, rfl, rfl⟩
      exact ⟨before, (List.append_nil _).symm⟩
  | holds =>
    rw [compareText, occursIn_iff]
    constructor
    · rintro ⟨before, behind, rfl⟩
      exact ⟨before, behind, trivial, rfl⟩
    · rintro ⟨before, behind, -, rfl⟩
      exact ⟨before, behind, rfl⟩

end Operator

theorem value_accepts_text {text : String} {operator : Operator}
    (ho : Operator.ofText? text = some operator) (value literal : String) (flag : Option String) :
    (accepts (some (.text value)) (some text) (some (.text literal)) flag).value =
      if minds flag then operator.compareText value.toList literal.toList
      else operator.compareText (lower value.toList) (lower literal.toList) := by
  have hc : ∀ v l : String, operator.compare (.text v) (.text l) =
      operator.compareText v.toList l.toList := by
    intro v l
    simp [Operator.compare, Scalar.isNumber, Scalar.display]
  simp only [accepts, ho, Logged.value_pure, satisfies, isComparable, Bool.true_and, normalize]
  split
  · simp [hc]
  · simp [hc, literalText, Scalar.display, lowercase]

end SyntaxQuery.Query
