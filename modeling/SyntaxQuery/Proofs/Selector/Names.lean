import Mathlib.Data.List.Chain
import SyntaxQuery.Selector.Lexer

namespace SyntaxQuery.Selector

theorem forall_head {α : Type} {P : α → Prop} {a : α} {as : List α} (h : P a) :
    ∀ b ∈ (a :: as).head?, P b := by
  intro b hb
  obtain rfl := Option.some.inj hb
  exact h

def EndsName (cs : List Char) : Prop :=
  ∀ c ∈ cs.head?, isNameChar c = false ∧ c ≠ '\\'

theorem escapeLength_of_ne {c : Char} (h : c ≠ '\\') (cs : List Char) :
    escapeLength (c :: cs) = 0 := by
  unfold escapeLength
  split
  · rename_i hc
    exact (h (List.cons.inj hc).1).elim
  · rfl

theorem nameRun_endsName {cs : List Char} (h : EndsName cs) : nameRun 0 cs = 0 := by
  cases cs with
  | nil => rfl
  | cons c cs =>
    obtain ⟨hc, hb⟩ := h c rfl
    rw [nameRun, hc, escapeLength_of_ne hb]
    rfl

theorem nameRun_append {name rest : List Char} (hn : name.all isNameChar = true)
    (hr : EndsName rest) : nameRun 0 (name ++ rest) = name.length := by
  induction name with
  | nil => exact nameRun_endsName hr
  | cons c name ih =>
    rw [List.all_cons, Bool.and_eq_true] at hn
    rw [List.cons_append, nameRun, hn.1, if_pos rfl, ih hn.2, List.length_cons]

def isPlainName : List Char → Bool
  | '-' :: c :: cs => isNameStart c && cs.all isNameChar
  | c :: cs => isNameStart c && cs.all isNameChar
  | [] => false

theorem isNameChar_of_isNameStart {c : Char} (h : isNameStart c = true) :
    isNameChar c = true := by
  rw [isNameChar, h]
  rfl

theorem isNameStart_ne {c : Char} (h : isNameStart c = true) : c ≠ '-' := by
  rintro rfl
  revert h
  decide

theorem isPlainName_cons {c : Char} {cs : List Char} : isPlainName (c :: cs) = true ↔
    (isNameStart c = true ∧ cs.all isNameChar = true) ∨
      c = '-' ∧ ∃ d ds, cs = d :: ds ∧ isNameStart d = true ∧ ds.all isNameChar = true := by
  constructor
  · intro h
    unfold isPlainName at h
    split at h
    · rename_i d ds e
      obtain ⟨rfl, rfl⟩ := List.cons.inj e
      rw [Bool.and_eq_true] at h
      exact .inr ⟨rfl, d, ds, rfl, h⟩
    · rename_i d ds _ e
      obtain ⟨rfl, rfl⟩ := List.cons.inj e
      rw [Bool.and_eq_true] at h
      exact .inl h
    · rename_i e
      cases e
  · rintro (⟨hc, hs⟩ | ⟨rfl, d, ds, rfl, hd, hs⟩)
    · rw [isPlainName]
      · rw [hc, hs]
        rfl
      · rintro _ _ rfl
        exact (isNameStart_ne hc rfl).elim
    · rw [isPlainName, hd, hs]
      rfl

theorem isPlainName_all {cs : List Char} (h : isPlainName cs = true) :
    cs.all isNameChar = true := by
  cases cs with
  | nil => rfl
  | cons c cs =>
    rw [List.all_cons, Bool.and_eq_true]
    obtain ⟨hc, hs⟩ | ⟨rfl, d, ds, rfl, hd, hs⟩ := isPlainName_cons.mp h
    · exact ⟨isNameChar_of_isNameStart hc, hs⟩
    · exact ⟨by decide, by simp [isNameChar_of_isNameStart hd, hs]⟩

theorem identLength_plain {name rest : List Char} (hn : isPlainName name = true)
    (hr : EndsName rest) : identLength (name ++ rest) = name.length := by
  cases name with
  | nil => cases hn
  | cons c cs =>
    obtain ⟨hc, hs⟩ | ⟨rfl, d, ds, rfl, hd, hs⟩ := isPlainName_cons.mp hn
    · rw [List.cons_append]
      unfold identLength
      split
      · rename_i e
        exact (isNameStart_ne hc (List.cons.inj e).1).elim
      · simp [nameStartLength, hc, nameRun, nameRun_append hs hr]
    · simp [identLength, nameStartLength, hd, nameRun, nameRun_append hs hr]
      omega

def NoHexEscape (cs : List Char) : Prop :=
  cs.IsChain fun c d => c = '\\' → isHex d = false

theorem numericLength_of_head {cs : List Char} (h : ∀ c ∈ cs.head?, isHex c = false) :
    numericLength cs = 0 := by
  cases cs with
  | nil => rfl
  | cons c cs => simp [numericLength, hexRun, h c rfl]

theorem resolveNumeric_eq_self {cs : List Char} (h : NoHexEscape cs) : resolveNumeric 0 cs = cs := by
  induction cs with
  | nil => rfl
  | cons c cs ih =>
    obtain ⟨hc, hs⟩ := List.isChain_cons.mp h
    rw [resolveNumeric, if_neg, ih hs]
    intro he
    rw [Bool.and_eq_true, decide_eq_true_iff, decide_eq_true_iff] at he
    exact he.2 (numericLength_of_head fun d hd => hc d hd he.1)

theorem resolveSimple_cons {c : Char} (h : c ≠ '\\') (cs : List Char) :
    resolveSimple (c :: cs) = c :: resolveSimple cs := by
  rw [resolveSimple] <;> simp [h]

theorem resolveSimple_escape {c : Char} (h : c ≠ '\n') (cs : List Char) :
    resolveSimple ('\\' :: c :: cs) = c :: resolveSimple cs := by
  rw [resolveSimple]
  simp [h]

theorem noHexEscape_of_not_mem {cs : List Char} (h : '\\' ∉ cs) : NoHexEscape cs := by
  induction cs with
  | nil => exact .nil
  | cons c cs ih =>
    rw [List.mem_cons, not_or] at h
    exact List.isChain_cons.mpr ⟨fun _ _ he => (h.1 he.symm).elim, ih h.2⟩

theorem resolveSimple_eq_self {cs : List Char} (h : '\\' ∉ cs) : resolveSimple cs = cs := by
  induction cs with
  | nil => rfl
  | cons c cs ih =>
    rw [List.mem_cons, not_or] at h
    rw [resolveSimple_cons (Ne.symm h.1), ih h.2]

theorem unescapeName_eq_self {cs : List Char} (h : '\\' ∉ cs) : unescapeName cs = cs := by
  rw [unescapeName, resolveNumeric_eq_self (noHexEscape_of_not_mem h), resolveSimple_eq_self h]

theorem backslash_not_mem {cs : List Char} (h : cs.all isNameChar = true) : '\\' ∉ cs := by
  intro hm
  have := List.all_eq_true.mp h _ hm
  revert this
  decide

theorem isGap_of_isNameChar {c : Char} (h : isNameChar c = true) : isGap c = false := by
  cases hg : isGap c with
  | false => rfl
  | true =>
    simp only [isGap, isLineEnd, Bool.or_eq_true, decide_eq_true_eq] at hg
    obtain (rfl | rfl) | (rfl | rfl) | rfl := hg <;> revert h <;> decide

theorem identLength_of_ne {c : Char} (hs : isNameStart c = false) (hb : c ≠ '\\') (hm : c ≠ '-')
    (cs : List Char) : identLength (c :: cs) = 0 := by
  unfold identLength
  split
  · rename_i e
    exact (hm (List.cons.inj e).1).elim
  · simp [nameStartLength, hs, escapeLength_of_ne hb]

theorem isDigit_iff {c : Char} : c.isDigit = true ↔ 48 ≤ c.toNat ∧ c.toNat ≤ 57 := by
  simp only [Char.isDigit, Bool.and_eq_true, decide_eq_true_eq, ge_iff_le, UInt32.le_iff_toNat_le]
  rfl

theorem isNameStart_of_isDigit {c : Char} (h : c.isDigit = true) : isNameStart c = false := by
  rw [isDigit_iff] at h
  have hu : c.isAlpha = false := by
    change (decide ('A'.val ≤ c.val ∧ c.val ≤ 'Z'.val) ||
      (decide ('a'.val ≤ c.val) && decide (c.val ≤ 'z'.val))) = false
    simp only [Bool.or_eq_false_iff, Bool.and_eq_false_iff, decide_eq_false_iff_not,
      UInt32.le_iff_toNat_le]
    change ¬ (65 ≤ c.toNat ∧ c.toNat ≤ 90) ∧ (¬ 97 ≤ c.toNat ∨ ¬ c.toNat ≤ 122)
    omega
  have hs : c ≠ '_' := by
    rintro rfl
    revert h
    decide
  simp [isNameStart, hu, hs]
  omega

theorem isDigit_ne {c d : Char} (h : c.isDigit = true) (hd : d.isDigit = false) : c ≠ d := by
  rintro rfl
  rw [h] at hd
  cases hd

end SyntaxQuery.Selector
