import SyntaxQuery.Proofs.Selector.Names
import SyntaxQuery.Selector.Render

namespace SyntaxQuery.Selector

def escaped (cs : List Char) : List Char :=
  cs.flatMap fun c => if c = '\\' || c = '"' then ['\\', c] else [c]

theorem enquote_eq (cs : List Char) : enquote cs = '"' :: (escaped cs ++ ['"']) := rfl

theorem escaped_mark {c : Char} (hc : c = '\\' ∨ c = '"') (cs : List Char) :
    escaped (c :: cs) = '\\' :: c :: escaped cs := by
  have hd : (decide (c = '\\') || decide (c = '"')) = true := by simpa using hc
  simp only [escaped, List.flatMap_cons, hd, if_true]
  rfl

theorem escaped_plain {c : Char} (hc : ¬ (c = '\\' ∨ c = '"')) (cs : List Char) :
    escaped (c :: cs) = c :: escaped cs := by
  have hd : (decide (c = '\\') || decide (c = '"')) = false := by simpa [not_or] using hc
  simp only [escaped, List.flatMap_cons, hd]
  rfl

theorem quotedRun_mark {c : Char} (hc : c = '\\' ∨ c = '"') (cs : List Char) :
    quotedRun '"' 0 ('\\' :: c :: cs) = quotedRun '"' 0 cs + 2 := by
  obtain rfl | rfl := hc <;> rfl

theorem quotedRun_plain {mark c : Char} (hb : c ≠ '\\') (hm : c ≠ mark)
    (hl : isLineEnd c = false) (cs : List Char) :
    quotedRun mark 0 (c :: cs) = quotedRun mark 0 cs + 1 := by
  rw [quotedRun, if_neg hb, if_neg (by simp [hm, hl])]

theorem quotedRun_escaped {v : List Char} (hv : ∀ c ∈ v, isLineEnd c = false) {d : Char}
    (hd : d = '"' ∨ isLineEnd d = true) (rest : List Char) :
    quotedRun '"' 0 (escaped v ++ d :: rest) = (escaped v).length := by
  induction v with
  | nil =>
    have hb : d ≠ '\\' := by
      rintro rfl
      revert hd
      decide
    have hs : (decide (d = '"') || isLineEnd d) = true := by simpa using hd
    show quotedRun '"' 0 (d :: rest) = 0
    rw [quotedRun, if_neg hb, if_pos hs]
  | cons c v ih =>
    have ih := ih fun c hc => hv c (List.mem_cons_of_mem _ hc)
    by_cases hc : c = '\\' ∨ c = '"'
    · rw [escaped_mark hc, List.cons_append, List.cons_append, quotedRun_mark hc, ih,
        List.length_cons, List.length_cons]
    · obtain ⟨hb, hq⟩ := not_or.mp hc
      rw [escaped_plain hc, List.cons_append, quotedRun_plain hb hq (hv c List.mem_cons_self), ih,
        List.length_cons]

theorem dropLineEnds_eq_self {cs : List Char} (h : ∀ c ∈ cs, isLineEnd c = false) :
    dropLineEnds cs = cs := by
  induction cs using dropLineEnds.induct with
  | case1 cs ih => exact absurd (h '\r' (by simp)) (by decide)
  | case2 c cs hne hc ih => exact absurd (h c (by simp)) (by simp [hc])
  | case3 c cs hne hc ih =>
    rw [dropLineEnds, if_neg hc, ih fun d hd => h d (List.mem_cons_of_mem _ hd)]
    exact hne
  | case4 c cs h₁ h₂ ih =>
    rw [dropLineEnds, ih fun d hd => h d (List.mem_cons_of_mem _ hd)] <;> assumption
  | case5 => rfl

theorem mem_escaped {c : Char} {cs : List Char} (h : c ∈ escaped cs) : c = '\\' ∨ c ∈ cs := by
  obtain ⟨d, hd, hc⟩ := List.mem_flatMap.mp h
  split at hc
  · obtain rfl | hc := List.mem_cons.mp hc
    · exact .inl rfl
    · exact .inr (List.mem_singleton.mp hc ▸ hd)
  · exact .inr (List.mem_singleton.mp hc ▸ hd)

theorem mem_escaped_of_mem {c : Char} {cs : List Char} (h : c ∈ cs) : c ∈ escaped cs := by
  refine List.mem_flatMap.mpr ⟨c, h, ?_⟩
  split <;> simp

theorem resolveSimple_escaped (cs : List Char) : resolveSimple (escaped cs) = cs := by
  induction cs with
  | nil => rfl
  | cons c cs ih =>
    by_cases hc : c = '\\' ∨ c = '"'
    · have hn : c ≠ '\n' := by
        rintro rfl
        revert hc
        decide
      rw [escaped_mark hc, resolveSimple_escape hn, ih]
    · rw [escaped_plain hc, resolveSimple_cons (not_or.mp hc).1, ih]

theorem head_escaped (cs : List Char) :
    (∀ d ∈ (escaped cs).head?, isHex d = false) ↔ ∀ d ∈ cs.head?, isHex d = false := by
  cases cs with
  | nil => rfl
  | cons c cs =>
    by_cases hc : c = '\\' ∨ c = '"'
    · have hh : isHex c = false := by obtain rfl | rfl := hc <;> decide
      rw [escaped_mark hc]
      simp [hh]
      decide
    · rw [escaped_plain hc]
      rfl

theorem noHexEscape_escaped (cs : List Char) : NoHexEscape (escaped cs) ↔ NoHexEscape cs := by
  induction cs with
  | nil => rfl
  | cons c cs ih =>
    have hh := head_escaped cs
    unfold NoHexEscape at ih ⊢
    by_cases hc : c = '\\' ∨ c = '"'
    · have hx : isHex c = false := by obtain rfl | rfl := hc <;> decide
      rw [escaped_mark hc, List.isChain_cons, List.isChain_cons, List.isChain_cons, ih]
      simp only [List.head?_cons, Option.mem_some_iff, forall_eq', hx]
      grind
    · rw [escaped_plain hc, List.isChain_cons, List.isChain_cons, ih]
      grind

theorem dropLineEnds_escaped {cs : List Char} (hl : ∀ c ∈ cs, isLineEnd c = false) :
    dropLineEnds (escaped cs) = escaped cs := by
  refine dropLineEnds_eq_self fun c hc => ?_
  obtain rfl | hc := mem_escaped hc
  · decide
  · exact hl c hc

/-- A text with no line end and no backslash before a digit of base sixteen is read back from its
escaped form. -/
theorem unescapeQuoted_escaped {cs : List Char} (hl : ∀ c ∈ cs, isLineEnd c = false)
    (hx : NoHexEscape cs) : unescapeQuoted (escaped cs) = cs := by
  rw [unescapeQuoted, unescapeName, dropLineEnds_escaped hl,
    resolveNumeric_eq_self ((noHexEscape_escaped cs).mpr hx), resolveSimple_escaped]

end SyntaxQuery.Selector
