import SyntaxQuery.Proofs.Query.Composition
import SyntaxQuery.Proofs.Query.Textual

namespace SyntaxQuery.Query

open SyntaxQuery.Journal SyntaxQuery.Number SyntaxQuery.Selector SyntaxQuery.Text
  SyntaxQuery.Tree

variable {flag : Option String}

/-- A value that passes the test of an operator without a literal. Where case does not matter, a
text is compared with the word for nothing. -/
def MeetsAbsent (value : Option Scalar) (text : String) (flag : Option String) : Prop :=
  minds flag = false ∧ ∃ s operator, value = some (.text s) ∧
    Operator.ofText? text = some operator ∧
      operator.compareText (lower s.toList) "none".toList = true

theorem normalize_absent_of_minds (hf : minds flag = true) (value : Scalar) :
    normalize value none flag = none := by
  simp [normalize, hf]

theorem normalize_absent_of_ne {value : Scalar} (hv : ∀ s, value ≠ .text s) :
    normalize value none flag = none := by
  have hl : leadingInteger? (literalText none).toList = none := by decide
  cases value with
  | text s => exact absurd rfl (hv s)
  | _ => simp [normalize, hl]

theorem not_accepts_absent {value : Scalar} (h : normalize value none flag = none) (text : String) :
    ¬ (accepts (some value) (some text) none flag).value = true := by
  intro ha
  obtain ⟨operator, ho⟩ := operator_of_accepts ha
  simp [accepts, ho, satisfies, h] at ha

theorem accepts_absent_text (hf : minds flag = false) {text : String} {operator : Operator}
    (ho : Operator.ofText? text = some operator) (s : String) :
    (accepts (some (.text s)) (some text) none flag).value = true ↔
      operator.compareText (lower s.toList) "none".toList = true := by
  have hn : normalize (.text s) none flag = normalize (.text s) (some (.text "None")) flag := by
    simp [normalize, hf, literalText, Scalar.display]
  have hl : lower "None".toList = "none".toList := by decide
  have hm : (accepts (some (.text s)) (some text) none flag).value = true ↔
      Meets (.text s) text (.text "None") flag := by
    simp only [Meets, accepts, satisfies, hn]
  have hc : ¬ minds flag = true := by simp [hf]
  rw [hm, meets_text ho, folded, if_neg hc, folded, if_neg hc, hl]

theorem accepts_absent_iff (value : Option Scalar) (text : String) (flag : Option String) :
    (accepts value (some text) none flag).value = true ↔ MeetsAbsent value text flag := by
  constructor
  · intro h
    obtain ⟨operator, ho⟩ := operator_of_accepts h
    cases value with
    | none =>
      rw [accepts, ho] at h
      cases h
    | some value =>
      cases hf : minds flag with
      | true => exact absurd h (not_accepts_absent (normalize_absent_of_minds hf value) text)
      | false =>
        cases value with
        | text s => exact ⟨hf, s, operator, rfl, ho, (accepts_absent_text hf ho s).mp h⟩
        | _ => exact absurd h (not_accepts_absent (normalize_absent_of_ne (by rintro s ⟨⟩)) text)
  · rintro ⟨hf, s, operator, rfl, ho, h⟩
    exact (accepts_absent_text hf ho s).mpr h

/-- An absent literal is taken for a text where case does not matter, and meets nothing otherwise. A
walk goes on behind such a test just where it is met. -/
theorem absent_literal_is_text (text : String) (flag : Option String) :
    (∀ value, (accepts value (some text) none flag).value = true ↔ MeetsAbsent value text flag) ∧
    ∀ (name : String) (verbose : Bool) (total : Nat) (rest : List Token) (n : Located),
      (∃ p, Property.ofName? name = some p ∧ MeetsAbsent (n.value p) text flag) ∧
        (walk verbose total (.property name (some text) none flag :: rest) n).value =
          (walk verbose total rest n).value ∨
      (¬ ∃ p, Property.ofName? name = some p ∧ MeetsAbsent (n.value p) text flag) ∧
        (walk verbose total (.property name (some text) none flag :: rest) n).value = [] := by
  refine ⟨fun value => accepts_absent_iff value text flag, fun name verbose total rest n => ?_⟩
  rw [value_walk_cons rfl, targets]
  cases hp : Property.ofName? name with
  | none => exact .inr ⟨by simp, rfl⟩
  | some p =>
    by_cases h : (accepts (n.value p) (some text) none flag).value = true
    · refine .inl ⟨⟨p, rfl, (accepts_absent_iff _ _ _).mp h⟩, ?_⟩
      simp [Option.filter, h]
    · refine .inr ⟨?_, by simp [Option.filter, h]⟩
      rintro ⟨_, ⟨⟩, hm⟩
      exact h ((accepts_absent_iff _ _ _).mpr hm)

theorem absent_literal_found :
    (accepts (some (.text "none")) (some "=") none none).value = true ∧
      (accepts (some (.text "Nonesuch")) (some "^=") none (some "i")).value = true ∧
      (accepts (some (.text "none")) (some "=") none (some "s")).value = false ∧
      (walk false 1 [.property "type" (some "=") none none]
        (.root (.mk { (default : Label) with kind := "none" } []))).value ≠ [] := by
  have hm : MeetsAbsent (some (.text "none")) "=" none :=
    ⟨rfl, "none", .equal, rfl, rfl, by decide⟩
  have hp : MeetsAbsent (some (.text "Nonesuch")) "^=" (some "i") :=
    ⟨rfl, "Nonesuch", .starts, rfl, rfl, by decide⟩
  refine ⟨?_, ?_, by decide, ?_⟩
  · exact ((absent_literal_is_text "=" none).1 _).mpr hm
  · exact ((absent_literal_is_text "^=" (some "i")).1 _).mpr hp
  · obtain ⟨-, he⟩ | ⟨hn, -⟩ := (absent_literal_is_text "=" none).2 "type" false 1 []
      (.root (.mk { (default : Label) with kind := "none" } []))
    · rw [he]
      exact List.cons_ne_nil _ _
    · exact absurd ⟨.type, rfl, hm⟩ hn

end SyntaxQuery.Query
