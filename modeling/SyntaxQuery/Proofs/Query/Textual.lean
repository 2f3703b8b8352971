import SyntaxQuery.Proofs.Query.Place

namespace SyntaxQuery.Query

open SyntaxQuery.Journal SyntaxQuery.Text

namespace Operator

variable {value literal : List Char}

theorem compareText_equal : equal.compareText value literal = true ↔ value = literal :=
  decide_eq_true_iff

theorem compareText_starts : starts.compareText value literal = true ↔ literal <+: value :=
  List.isPrefixOf_iff_prefix

theorem compareText_ends : ends.compareText value literal = true ↔ literal <:+ value :=
  List.isSuffixOf_iff_suffix

theorem compareText_holds : holds.compareText value literal = true ↔ literal <:+: value :=
  occursIn_iff

theorem compareText_dash :
    dash.compareText value literal = true ↔
      value = literal ∨ '-' ∉ literal ∧ literal ++ ['-'] <+: value := by
  rw [compareText_iff]
  constructor
  · rintro ⟨_, behind, ⟨rfl, rfl | ⟨hl, rest, rfl⟩⟩, rfl⟩
    · exact .inl (List.append_nil literal)
    · exact .inr ⟨hl, rest, List.append_assoc _ _ _⟩
  · rintro (rfl | ⟨hl, rest, rfl⟩)
    · exact ⟨[], [], ⟨rfl, .inl rfl⟩, (List.append_nil value).symm⟩
    · exact ⟨[], ['-'] ++ rest, ⟨rfl, .inr ⟨hl, rest, rfl⟩⟩, List.append_assoc _ _ _⟩

theorem compareText_word :
    word.compareText value literal = true ↔
      ' ' ∉ literal ∧ ∃ before behind, value = before ++ literal ++ behind ∧
        (before = [] ∨ [' '] <:+ before) ∧ (behind = [] ∨ [' '] <+: behind) := by
  rw [compareText, List.contains_iff_mem, mem_pieces]

end Operator

def Meets (value : Scalar) (text : String) (literal : Scalar) (flag : Option String) : Prop :=
  (accepts (some value) (some text) (some literal) flag).value = true

instance (value : Scalar) (text : String) (literal : Scalar) (flag : Option String) :
    Decidable (Meets value text literal flag) :=
  inferInstanceAs (Decidable (_ = true))

theorem operator_of_accepts {value literal : Option Scalar} {text : String} {flag : Option String}
    (h : (accepts value (some text) literal flag).value = true) :
    ∃ operator, Operator.ofText? text = some operator := by
  rw [accepts] at h
  cases ho : Operator.ofText? text with
  | none =>
    rw [ho] at h
    cases h
  | some operator => exact ⟨operator, rfl⟩

def folded (flag : Option String) (s : String) : List Char :=
  if minds flag then s.toList else lower s.toList

theorem meets_text {text : String} {operator : Operator}
    (ho : Operator.ofText? text = some operator) (value literal : String) (flag : Option String) :
    Meets (.text value) text (.text literal) flag ↔
      operator.compareText (folded flag value) (folded flag literal) = true := by
  rw [Meets, value_accepts_text ho, folded, folded]
  split
  · rfl
  · rfl

/-- What the operators ask of two texts, and which of them ask for more than others. -/
theorem text_operators (value literal : String) (flag : Option String) :
    (Meets (.text value) "=" (.text literal) flag ↔ folded flag value = folded flag literal) ∧
    (Meets (.text value) "^=" (.text literal) flag ↔ folded flag literal <+: folded flag value) ∧
    (Meets (.text value) "$=" (.text literal) flag ↔ folded flag literal <:+ folded flag value) ∧
    (Meets (.text value) "*=" (.text literal) flag ↔ folded flag literal <:+: folded flag value) ∧
    (Meets (.text value) "|=" (.text literal) flag ↔
      folded flag value = folded flag literal ∨
        '-' ∉ folded flag literal ∧ folded flag literal ++ ['-'] <+: folded flag value) ∧
    (Meets (.text value) "~=" (.text literal) flag ↔
      ' ' ∉ folded flag literal ∧
        ∃ before behind, folded flag value = before ++ folded flag literal ++ behind ∧
          (before = [] ∨ [' '] <:+ before) ∧ (behind = [] ∨ [' '] <+: behind)) ∧
    (Meets (.text value) "=" (.text literal) flag →
      Meets (.text value) "|=" (.text literal) flag) ∧
    (Meets (.text value) "|=" (.text literal) flag →
      Meets (.text value) "^=" (.text literal) flag) ∧
    (Meets (.text value) "^=" (.text literal) flag →
      Meets (.text value) "*=" (.text literal) flag) ∧
    (Meets (.text value) "=" (.text literal) flag →
      Meets (.text value) "$=" (.text literal) flag) ∧
    (Meets (.text value) "$=" (.text literal) flag →
      Meets (.text value) "*=" (.text literal) flag) ∧
    (Meets (.text value) "~=" (.text literal) flag →
      Meets (.text value) "*=" (.text literal) flag) := by
  have equal : Meets (.text value) "=" (.text literal) flag ↔ _ :=
    (meets_text rfl value literal flag).trans Operator.compareText_equal
  have starts : Meets (.text value) "^=" (.text literal) flag ↔ _ :=
    (meets_text rfl value literal flag).trans Operator.compareText_starts
  have ends : Meets (.text value) "$=" (.text literal) flag ↔ _ :=
    (meets_text rfl value literal flag).trans Operator.compareText_ends
  have holds : Meets (.text value) "*=" (.text literal) flag ↔ _ :=
    (meets_text rfl value literal flag).trans Operator.compareText_holds
  have dash : Meets (.text value) "|=" (.text literal) flag ↔ _ :=
    (meets_text rfl value literal flag).trans Operator.compareText_dash
  have word : Meets (.text value) "~=" (.text literal) flag ↔ _ :=
    (meets_text rfl value literal flag).trans Operator.compareText_word
  refine ⟨equal, starts, ends, holds, dash, word, ?_, ?_, ?_, ?_, ?_, ?_⟩
  · intro h
    exact dash.mpr (.inl (equal.mp h))
  · intro h
    apply starts.mpr
    obtain h | ⟨-, h⟩ := dash.mp h
    · exact h ▸ List.prefix_rfl
    · exact (List.prefix_append _ _).trans h
  · intro h
    exact holds.mpr (starts.mp h).isInfix
  · intro h
    apply ends.mpr
    exact equal.mp h ▸ List.suffix_rfl
  · intro h
    exact holds.mpr (ends.mp h).isInfix
  · intro h
    obtain ⟨-, before, behind, h, -⟩ := word.mp h
    exact holds.mpr ⟨before, behind, h.symm⟩

end SyntaxQuery.Query
