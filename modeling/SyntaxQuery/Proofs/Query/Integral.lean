import SyntaxQuery.Proofs.Number.Leading
import SyntaxQuery.Proofs.Query.Textual

namespace SyntaxQuery.Query

open SyntaxQuery.Journal SyntaxQuery.Number SyntaxQuery.Text

namespace Operator

variable {n k : Int}

theorem compareText_equal_decimal :
    equal.compareText (decimal n) (decimal k) = true ↔ n = k := by
  rw [compareText_equal]
  exact ⟨decimal_injective, congrArg decimal⟩

theorem compareText_dash_decimal :
    dash.compareText (decimal n) (decimal k) = true ↔ n = k := by
  rw [compareText_dash]
  constructor
  · rintro (h | ⟨-, rest, h⟩)
    · exact decimal_injective h
    · obtain ⟨d, ds, hd⟩ := List.exists_cons_of_ne_nil (decimal_ne_nil k)
      have hm : '-' ∈ (decimal n).tail := by
        rw [← h, hd]
        simp
      exact absurd hm (dash_not_mem_tail_decimal n)
  · rintro rfl
    exact .inl rfl

theorem compareText_word_decimal :
    word.compareText (decimal n) (decimal k) = true ↔ n = k := by
  rw [compareText_word]
  constructor
  · rintro ⟨-, before, behind, h, hb, hr⟩
    have hn := blank_not_mem_decimal n
    rw [h, List.mem_append, List.mem_append, not_or, not_or] at hn
    obtain rfl | hb := hb
    · obtain rfl | hr := hr
      · exact decimal_injective (by simpa using h)
      · exact absurd (hr.subset (List.mem_singleton_self ' ')) hn.2
    · exact absurd (hb.subset (List.mem_singleton_self ' ')) hn.1.1
  · rintro rfl
    exact ⟨blank_not_mem_decimal n, [], [], by simp, .inl rfl, .inl rfl⟩

theorem compare_integers (operator : Operator) (n k : Int) :
    operator.compare (.integer n) (.integer k) = operator.compareText (decimal n) (decimal k) := by
  cases operator with
  | equal =>
    have hs : Scalar.same (.integer n) (.integer k) = decide (n = k) := by
      simp [Scalar.same, Scalar.whole?]
    have hc : equal.compare (.integer n) (.integer k) = Scalar.same (.integer n) (.integer k) := rfl
    rw [hc, hs, Bool.eq_iff_iff, decide_eq_true_iff, compareText_equal_decimal]
  | _ => simp [compare, Scalar.display]

end Operator

variable {text : String} {operator : Operator} {flag : Option String}

theorem meets_integer (ho : Operator.ofText? text = some operator) (hf : minds flag = false)
    (n : Int) (literal : String) :
    Meets (.integer n) text (.text literal) flag ↔
      ∃ k, leadingInteger? literal.toList = some k ∧
        operator.compareText (decimal n) (decimal k) = true := by
  have hn : normalize (.integer n) (some (.text literal)) flag =
      (leadingInteger? literal.toList).map fun k => (.integer n, .integer k) := by
    simp [normalize, hf, literalText, Scalar.display]
  simp only [Meets, accepts, ho, Logged.value_pure, satisfies, isComparable, Bool.true_and, hn,
    Option.any_map, Option.any_eq_true, Operator.compare_integers]

theorem meets_integer_verbatim (hf : minds flag = true) (text : String) (n : Int)
    (literal : String) :
    Meets (.integer n) text (.text literal) flag ↔
      Meets (.text (String.ofList (decimal n))) text (.text literal) flag := by
  rw [Meets, Meets, accepts, accepts]
  cases Operator.ofText? text with
  | none => rfl
  | some operator =>
    have hc : operator.compare (.integer n) (.text literal) =
        operator.compare (.text (String.ofList (decimal n))) (.text literal) := by
      simp [Operator.compare, Scalar.isNumber, Scalar.display]
    simp only [Logged.value_pure, satisfies, isComparable, normalize, if_pos hf, Option.map_some,
      Option.any_some, hc]

theorem meets_of_leadsWith (ho : Operator.ofText? text = some operator) (hf : minds flag = false)
    {literal : String} {k : Int} (hk : LeadsWith literal.toList k) (n : Int) :
    Meets (.integer n) text (.text literal) flag ↔
      operator.compareText (decimal n) (decimal k) = true := by
  rw [meets_integer ho hf, leadsWith_iff.mp hk]
  simp

theorem not_meets_of_no_integer (hf : minds flag = false) {literal : String}
    (h : leadingInteger? literal.toList = none) (n : Int) (text : String) :
    ¬ Meets (.integer n) text (.text literal) flag := by
  intro hm
  obtain ⟨operator, ho⟩ := operator_of_accepts hm
  obtain ⟨k, hk, -⟩ := (meets_integer ho hf n literal).mp hm
  rw [h] at hk
  cases hk

theorem meets_own_decimal (n : Int) (flag : Option String) :
    Meets (.integer n) "=" (.text (String.ofList (decimal n))) flag := by
  cases hf : minds flag with
  | true =>
    rw [meets_integer_verbatim hf, meets_text rfl, Operator.compareText_equal]
  | false =>
    have hk : LeadsWith (String.ofList (decimal n)).toList n := by
      rw [String.toList_ofList, leadsWith_iff, leadingInteger?_decimal]
    rw [meets_of_leadsWith rfl hf hk, Operator.compareText_equal]

/-- The tests of an integer. Where case matters it is compared as its decimal text; otherwise as an
integer, with the longest one at the beginning of the literal, and without one there it fails. -/
theorem integer_operators (n : Int) (literal : String) (flag : Option String) :
    (minds flag = false →
      ((∃ k, LeadsWith literal.toList k) ∨
        (∀ part k, part <+: literal.toList → ¬ Denotes part k) ∧
          ∀ text, ¬ Meets (.integer n) text (.text literal) flag) ∧
      ∀ k, LeadsWith literal.toList k →
        (Meets (.integer n) "=" (.text literal) flag ↔ n = k) ∧
        (Meets (.integer n) "^=" (.text literal) flag ↔ decimal k <+: decimal n) ∧
        (Meets (.integer n) "$=" (.text literal) flag ↔ decimal k <:+ decimal n) ∧
        (Meets (.integer n) "*=" (.text literal) flag ↔ decimal k <:+: decimal n) ∧
        (Meets (.integer n) "~=" (.text literal) flag ↔ n = k) ∧
        (Meets (.integer n) "|=" (.text literal) flag ↔ n = k)) ∧
    (minds flag = true → ∀ text, Meets (.integer n) text (.text literal) flag ↔
      Meets (.text (String.ofList (decimal n))) text (.text literal) flag) ∧
    Meets (.integer n) "=" (.text (String.ofList (decimal n))) flag := by
  refine ⟨fun hf => ⟨?_, fun k hk => ?_⟩, fun hf text => ?_, meets_own_decimal n flag⟩
  · cases hl : leadingInteger? literal.toList with
    | none => exact .inr ⟨leadingInteger?_eq_none_iff.mp hl, not_meets_of_no_integer hf hl n⟩
    | some k => exact .inl ⟨k, leadsWith_iff.mpr hl⟩
  · exact ⟨(meets_of_leadsWith rfl hf hk n).trans Operator.compareText_equal_decimal,
      (meets_of_leadsWith rfl hf hk n).trans Operator.compareText_starts,
      (meets_of_leadsWith rfl hf hk n).trans Operator.compareText_ends,
      (meets_of_leadsWith rfl hf hk n).trans Operator.compareText_holds,
      (meets_of_leadsWith rfl hf hk n).trans Operator.compareText_word_decimal,
      (meets_of_leadsWith rfl hf hk n).trans Operator.compareText_dash_decimal⟩
  · exact meets_integer_verbatim hf text n literal

theorem integer_operators_paddedLiteral :
    LeadsWith " -012px".toList (-12) ∧
      Meets (.integer (-12)) "|=" (.text " -012px") none ∧
      Meets (.integer (-123)) "^=" (.text " -012px") (some "i") ∧
      ¬ Meets (.integer (-12)) "$=" (.text " -012px") (some "s") ∧
      ¬ Meets (.integer 12) "*=" (.text "px") none := by
  have hk : LeadsWith " -012px".toList (-12) := leadsWith_iff.mpr (by decide)
  refine ⟨hk, ?_, ?_, ?_, ?_⟩
  · exact (((integer_operators (-12) " -012px" none).1 rfl).2 (-12) hk).2.2.2.2.2.mpr rfl
  · refine (((integer_operators (-123) " -012px" (some "i")).1 rfl).2 (-12) hk).2.1.mpr ?_
    decide
  · rw [(integer_operators (-12) " -012px" (some "s")).2.1 rfl, meets_text rfl]
    decide
  · obtain ⟨k, hl⟩ | ⟨-, h⟩ := ((integer_operators 12 "px" none).1 rfl).1
    · rw [leadsWith_iff] at hl
      cases hl
    · exact h "*="

end SyntaxQuery.Query
