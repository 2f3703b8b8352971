import SyntaxQuery.Proofs.Query.Place
import SyntaxQuery.Proofs.Text.Lowercase

namespace SyntaxQuery.Query

open SyntaxQuery.Journal SyntaxQuery.Text

/-- A sigma at the beginning or the end of a literal has another lower-case form in its place than in
the literal on its own. -/
def SigmaTurns (before literal behind : List Char) : Prop :=
  OpensOnSigma (endsCased false before) literal behind ∨ ClosesOnSigma false literal behind

theorem not_turns_iff {before literal behind : List Char} :
    ¬ SigmaTurns before literal behind ↔
      lowerBefore (endsCased false before) literal behind = lower literal := by
  rw [SigmaTurns, not_or]
  exact (lowerBefore_eq_lower_iff _ _ _).symm

theorem not_turns_of_not_mem {literal : List Char} (h : 'Σ' ∉ literal) (before behind : List Char) :
    ¬ SigmaTurns before literal behind := by
  rintro (⟨-, marks, letters, rfl, -⟩ | ⟨-, letters, marks, rfl, -⟩)
  · exact h (by simp)
  · exact h (by simp)

theorem not_turns_of_uncased {before behind : List Char} (hb : endsCased false before = false)
    (hs : startsCased behind = false) (literal : List Char) :
    ¬ SigmaTurns before literal behind := by
  rintro (⟨h, -⟩ | ⟨h, -⟩)
  · rw [hb] at h
    cases h
  · rw [hs] at h
    cases h

/-- The lower-case form of a value, cut where a literal stands in it. -/
theorem lower_cut (before literal behind : List Char) :
    lower (before ++ literal ++ behind) =
      lowerBefore false before (literal ++ behind) ++
        lowerBefore (endsCased false before) literal behind ++
          lowerFrom (endsCased (endsCased false before) literal) behind := by
  rw [lower, List.append_assoc, lowerFrom_append, lowerFrom_append, List.append_assoc]

namespace Operator

def asksForWords : Operator → Bool
  | equal | word | dash => true
  | _ => false

/-- The literal stands in the value as the operator asks, and no sigma of it turns there. -/
def Keeps (operator : Operator) (value literal : List Char) : Prop :=
  ∃ before behind, operator.Stands before literal behind ∧ value = before ++ literal ++ behind ∧
    ¬ SigmaTurns before literal behind

variable {operator : Operator} {before literal behind value : List Char}

theorem not_turns_of_asksForWords (ho : operator.asksForWords = true)
    (h : operator.Stands before literal behind) : ¬ SigmaTurns before literal behind := by
  cases operator with
  | equal =>
    obtain ⟨rfl, rfl⟩ := h
    exact not_turns_of_uncased rfl rfl literal
  | word =>
    obtain ⟨-, ha, hb⟩ := h
    exact not_turns_of_uncased (endsCased_of_separator (.inl rfl) ha)
      (startsCased_of_separator (.inl rfl) hb) literal
  | dash =>
    obtain ⟨rfl, hb⟩ := h
    exact not_turns_of_uncased rfl
      (startsCased_of_separator (.inr rfl) (hb.imp_right And.right)) literal
  | _ => cases ho

theorem stands_lower (h : operator.Stands before literal behind) (more : List Char)
    (afterCased : Bool) :
    operator.Stands (lowerBefore false before more) (lower literal) (lowerFrom afterCased behind) := by
  cases operator with
  | equal =>
    obtain ⟨rfl, rfl⟩ := h
    exact ⟨rfl, rfl⟩
  | word =>
    obtain ⟨hl, ha, hb⟩ := h
    exact ⟨not_mem_lowerFrom (.inl rfl) hl false,
      lowerBefore_of_separator (.inl rfl) ha false more,
      lowerFrom_of_separator (.inl rfl) hb afterCased⟩
  | dash =>
    obtain ⟨rfl, rfl | ⟨hl, hb⟩⟩ := h
    · exact ⟨rfl, .inl rfl⟩
    · refine ⟨rfl, (lowerFrom_of_separator (.inr rfl) (.inr hb) afterCased).imp_right fun hb => ?_⟩
      exact ⟨not_mem_lowerFrom (.inr rfl) hl false, hb⟩
  | starts =>
    obtain rfl := h
    rfl
  | ends =>
    obtain rfl := h
    rfl
  | holds => trivial

theorem compareText_lower_of_keeps (h : operator.Keeps value literal) :
    operator.compareText (lower value) (lower literal) = true := by
  obtain ⟨before, behind, hs, rfl, ht⟩ := h
  rw [compareText_iff, lower_cut, not_turns_iff.mp ht]
  exact ⟨_, _, stands_lower hs _ _, rfl⟩

theorem keeps_of_compareText (h : operator.compareText value literal = true)
    (hw : operator.asksForWords = true ∨ 'Σ' ∉ literal) : operator.Keeps value literal := by
  obtain ⟨before, behind, hs, hv⟩ := compareText_iff.mp h
  refine ⟨before, behind, hs, hv, ?_⟩
  obtain ho | hl := hw
  · exact not_turns_of_asksForWords ho hs
  · exact not_turns_of_not_mem hl before behind

theorem keeps_of_compareText_lower (h : operator.compareText value literal = true)
    (hl : operator.compareText (lower value) (lower literal) = true) (hh : operator ≠ holds) :
    operator.Keeps value literal := by
  cases operator with
  -- a value has one beginning and one end, so there the two lower-case forms are compared in full
  | starts =>
    obtain ⟨before, behind, rfl, rfl⟩ := compareText_iff.mp h
    refine ⟨[], behind, rfl, rfl, not_turns_iff.mpr ?_⟩
    obtain ⟨_, rest, rfl, he⟩ := compareText_iff.mp hl
    rw [lower_cut, List.append_assoc, List.append_assoc] at he
    exact List.append_inj_left he (length_lower _ _ _)
  | ends =>
    obtain ⟨before, behind, rfl, rfl⟩ := compareText_iff.mp h
    refine ⟨before, [], rfl, rfl, not_turns_iff.mpr ?_⟩
    obtain ⟨rest, _, rfl, he⟩ := compareText_iff.mp hl
    rw [lower_cut] at he
    simp only [lowerFrom, List.append_nil] at he
    exact List.append_inj_right' he (length_lower _ _ _)
  | holds => exact (hh rfl).elim
  | _ => exact keeps_of_compareText h (.inl rfl)

end Operator

/-- Without regard to case a literal is still found where it is found as it is, if no sigma at an end
of it turns there. For whole values, words and what stands in front of a dash none does, and at the
beginning and the end of a value one that turns makes the literal fail. -/
theorem caseless_accepts {text : String} {operator : Operator}
    (ho : Operator.ofText? text = some operator) {flag flag' : Option String}
    (hf : minds flag = true) (hf' : minds flag' = false) {value literal : String}
    (h : (accepts (some (.text value)) (some text) (some (.text literal)) flag).value = true) :
    (operator.Keeps value.toList literal.toList →
      (accepts (some (.text value)) (some text) (some (.text literal)) flag').value = true) ∧
    (operator ≠ .holds →
      (accepts (some (.text value)) (some text) (some (.text literal)) flag').value = true →
      operator.Keeps value.toList literal.toList) ∧
    (operator.asksForWords = true ∨ 'Σ' ∉ literal.toList →
      operator.Keeps value.toList literal.toList) := by
  rw [value_accepts_text ho, if_pos hf] at h
  rw [value_accepts_text ho, if_neg (by simp [hf'])]
  exact ⟨Operator.compareText_lower_of_keeps,
    fun hh hl => Operator.keeps_of_compareText_lower h hl hh, Operator.keeps_of_compareText h⟩

theorem prefix_on_sigma_turns :
    (accepts (some (.text "ΑΣΑ")) (some "^=") (some (.text "ΑΣ")) (some "s")).value = true ∧
      (accepts (some (.text "ΑΣΑ")) (some "^=") (some (.text "ΑΣ")) none).value = false ∧
      ¬ Operator.starts.Keeps "ΑΣΑ".toList "ΑΣ".toList := by
  have h : (accepts (some (.text "ΑΣΑ")) (some "^=") (some (.text "ΑΣ")) (some "s")).value = true := by
    decide +kernel
  have hn : (accepts (some (.text "ΑΣΑ")) (some "^=") (some (.text "ΑΣ")) none).value = false := by
    decide +kernel
  have ho : Operator.ofText? "^=" = some .starts := rfl
  have hm : minds none = false := rfl
  refine ⟨h, hn, fun hk => ?_⟩
  have ha := (caseless_accepts ho rfl hm h).1 hk
  rw [hn] at ha
  cases ha

end SyntaxQuery.Query
