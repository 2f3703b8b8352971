import SyntaxQuery.Proofs.Selector.Completeness
import SyntaxQuery.Proofs.Selector.Numbers
import SyntaxQuery.Proofs.Selector.Quoted

namespace SyntaxQuery.Selector

section

variable (position : Nat)

theorem lexeme_blank {c : Char} {cs : List Char} (hc : isGap c = true) :
    lexeme position c cs = .ok (some .blank, (cs.takeWhile isGap).length) := by
  simp only [lexeme, hc, if_true]

theorem lexeme_space {cs : List Char} (hr : ∀ c ∈ cs.head?, isGap c = false) :
    lexeme position ' ' cs = .ok (some .blank, 0) := by
  have hz : cs.takeWhile isGap = [] := by
    cases cs with
    | nil => rfl
    | cons c cs => exact List.takeWhile_cons_of_neg (by simp [hr c rfl])
  rw [lexeme_blank position (by decide), hz]
  rfl

theorem lexeme_ident {c : Char} {cs rest : List Char} (hn : isPlainName (c :: cs) = true)
    (hr : EndsName rest) :
    lexeme position c (cs ++ rest) = .ok (some (.ident (String.ofList (c :: cs))), cs.length) := by
  have hl := identLength_plain hn hr
  have ha := isPlainName_all hn
  have hg : isGap c = false := isGap_of_isNameChar (List.all_eq_true.mp ha c List.mem_cons_self)
  rw [List.cons_append] at hl
  simp only [lexeme, hg, hl]
  rw [if_neg (by simp), if_pos (by simp), ← List.cons_append, List.take_left,
    unescapeName_eq_self (backslash_not_mem ha), List.length_cons, Nat.add_sub_cancel]

theorem lexeme_hash {name rest : List Char} (hne : name ≠ []) (hn : name.all isNameChar = true)
    (hr : EndsName rest) :
    lexeme position '#' (name ++ rest) = .ok (some (.hash (String.ofList name)), name.length) := by
  have hl := nameRun_append hn hr
  have hi : identLength ('#' :: (name ++ rest)) = 0 :=
    identLength_of_ne (by decide) (by decide) (by decide) _
  have hp : name.length ≠ 0 := fun h => hne (List.length_eq_zero_iff.mp h)
  simp only [lexeme, hi, hl]
  rw [if_neg (by decide), if_neg (by simp), if_pos (by simpa using hp), List.take_left,
    unescapeName_eq_self (backslash_not_mem hn)]

theorem lexeme_string {v rest : List Char} (hl : ∀ c ∈ v, isLineEnd c = false) :
    lexeme position '"' (escaped v ++ '"' :: rest) =
      .ok (some (.string (String.ofList (unescapeQuoted (escaped v)))), (escaped v).length + 1) := by
  have hi : identLength ('"' :: (escaped v ++ '"' :: rest)) = 0 :=
    identLength_of_ne (by decide) (by decide) (by decide) _
  simp only [lexeme, hi, quotedRun_escaped hl (.inl rfl), List.drop_left, List.take_left]
  rw [if_neg (by decide), if_neg (by simp), if_neg (by simp), if_pos (by decide), if_pos trivial]

theorem lexeme_broken {v rest : List Char} (hl : ∀ c ∈ v, isLineEnd c = false) {d : Char}
    (hd : isLineEnd d = true) :
    lexeme position '"' (escaped v ++ d :: rest) = .error (.broken position) := by
  have hi : identLength ('"' :: (escaped v ++ d :: rest)) = 0 :=
    identLength_of_ne (by decide) (by decide) (by decide) _
  have hm : d ≠ '"' := by
    rintro rfl
    revert hd
    decide
  simp only [lexeme, hi, quotedRun_escaped hl (.inr hd), List.drop_left, List.take_left]
  rw [if_neg (by decide), if_neg (by simp), if_neg (by simp), if_pos (by decide), if_neg hm]

theorem identLength_number {text : List Char} (h : IsNumber text) (rest : List Char) :
    identLength (text ++ rest) = 0 := by
  have hs : ∀ c : Char, c.isDigit = true ∨ c = '.' →
      isNameStart c = false ∧ c ≠ '\\' ∧ c ≠ '-' := by
    rintro c (hc | rfl)
    · exact ⟨isNameStart_of_isDigit hc, isDigit_ne hc rfl, isDigit_ne hc rfl⟩
    · decide
  cases h with
  | unsigned hm =>
    obtain ⟨c, cs, e, hc⟩ := hm.head rest
    obtain ⟨hs, hb, hm⟩ := hs c hc
    rw [e, identLength_of_ne hs hb hm]
  | @signed c cs hc hm =>
    obtain rfl | rfl := hc
    · rw [List.cons_append, identLength_of_ne (by decide) (by decide) (by decide)]
    · obtain ⟨d, ds, e, hd⟩ := hm.head rest
      obtain ⟨hs, hb, -⟩ := hs d hd
      simp [identLength, e, nameStartLength, hs, escapeLength_of_ne hb]

theorem IsNumber.begins {c : Char} {cs : List Char} (h : IsNumber (c :: cs)) :
    isGap c = false ∧ c ≠ '#' ∧ c ≠ '"' ∧ c ≠ '\'' := by
  obtain hc | hc := h.mem List.mem_cons_self
  · exact ⟨isGap_of_isNameChar (by simp [isNameChar, hc]), isDigit_ne hc rfl, isDigit_ne hc rfl,
      isDigit_ne hc rfl⟩
  · simp only [List.mem_cons, List.not_mem_nil, or_false] at hc
    obtain rfl | rfl | rfl := hc <;> decide

theorem lexeme_number {c : Char} {cs rest : List Char} (hn : IsNumber (c :: cs))
    (hr : EndsNumber rest) :
    lexeme position c (cs ++ rest) = .ok (some (.number (String.ofList (c :: cs))), cs.length) := by
  have hi := identLength_number hn rest
  have hl := numberLength_append hn hr
  obtain ⟨hg, hh, hq, ha⟩ := hn.begins
  rw [List.cons_append] at hi hl
  simp only [lexeme, hg, hi, hl]
  rw [if_neg (by simp), if_neg (by simp), if_neg (by simp [hh]), if_neg (by simp [hq, ha]),
    if_pos (by simp), ← List.cons_append, List.take_left, List.length_cons, Nat.add_sub_cancel]

def isMark (c : Char) : Bool :=
  c ∈ ['[', ']', '=', '~', '|', '^', '$', '*', ':', '(', ')', '>', '+', '.']

theorem isMark_ne {c : Char} (h : isMark c = true) : isGap c = false ∧ isNameChar c = false ∧
    c ≠ '\\' ∧ c ≠ '#' ∧ c ≠ '"' ∧ c ≠ '\'' ∧ c ≠ '/' := by
  simp only [isMark, List.mem_cons, List.not_mem_nil, or_false, decide_eq_true_eq] at h
  obtain rfl | rfl | rfl | rfl | rfl | rfl | rfl | rfl | rfl | rfl | rfl | rfl | rfl | rfl := h <;>
    decide

theorem isNameStart_of_not_isNameChar {c : Char} (h : isNameChar c = false) :
    isNameStart c = false := by
  cases hs : isNameStart c with
  | false => rfl
  | true => rw [isNameChar_of_isNameStart hs] at h; cases h

theorem lexeme_mark {c : Char} {cs : List Char} (hc : isMark c = true)
    (hn : numberLength (c :: cs) = 0) : lexeme position c cs = .ok (some (.delim c), 0) := by
  obtain ⟨hg, hs, hb, hh, hq, ha, hf⟩ := isMark_ne hc
  have hm : c ≠ '-' := by
    rintro rfl
    cases hc
  have hi := identLength_of_ne (isNameStart_of_not_isNameChar hs) hb hm cs
  simp only [lexeme, hg, hi, hn]
  rw [if_neg (by simp), if_neg (by simp), if_neg (by simp [hh]), if_neg (by simp [hq, ha]),
    if_neg (by simp), if_neg (by simp [hf])]

end

theorem numberLength_mark {c : Char} {cs : List Char} (hc : isMark c = true)
    (hp : c = '+' → EndsNumber cs) (hf : c = '.' → ∀ d ∈ cs.head?, d.isDigit = false) :
    numberLength (c :: cs) = 0 := by
  have hd : c.isDigit = false := by
    have := (isMark_ne hc).2.1
    rw [isNameChar] at this
    simp_all
  have hm : c ≠ '-' := by
    rintro rfl
    cases hc
  by_cases hs : c = '+'
  · have he := hp hs
    have hw := digitRun_of_head fun d hd => (he d hd).1
    simp [numberLength_signed (.inl hs), magnitudeLength, hw, placesLength_endsNumber he]
  · have hw : digitRun (c :: cs) = 0 := digitRun_of_head (by simpa using hd)
    have hpl : placesLength (c :: cs) = 0 := by
      unfold placesLength
      split
      · rename_i e
        obtain ⟨rfl, rfl⟩ := List.cons.inj e
        exact digitRun_of_head (hf rfl)
      · rfl
    rw [numberLength_unsigned (by simpa using ⟨hs, hm⟩)]
    simp [magnitudeLength, hw, hpl]

/-- A text is lexed as these bodies; comments leave none. -/
inductive Lexes : List Char → List Body → Prop where
  | nil : Lexes [] []
  | cons {c : Char} {cs : List Char} {b : Body} {n : Nat} {bs : List Body}
      (h : ∀ position, lexeme position c cs = .ok (some b, n)) (hs : Lexes (cs.drop n) bs) :
      Lexes (c :: cs) (b :: bs)
  | comment {c : Char} {cs : List Char} {n : Nat} {bs : List Body}
      (h : ∀ position, lexeme position c cs = .ok (none, n)) (hs : Lexes (cs.drop n) bs) :
      Lexes (c :: cs) bs

theorem Lexes.ok {c : Char} {cs : List Char} {bs : List Body} (h : Lexes (c :: cs) bs) :
    ∃ r, lexeme 0 c cs = .ok r := by
  cases h with
  | cons h _ => exact ⟨_, h 0⟩
  | comment h _ => exact ⟨_, h 0⟩

theorem lexeme_position {position : Nat} {c : Char} {cs : List Char} {r : Option Body × Nat}
    (h : lexeme position c cs = .ok r) (position' : Nat) : lexeme position' c cs = .ok r := by
  unfold lexeme at h ⊢
  grind

theorem lexFrom_passed (position n : Nat) (cs : List Char) :
    ∃ position', lexFrom position n cs = lexFrom position' 0 (cs.drop n) := by
  induction cs generalizing position n with
  | nil => exact ⟨0, by cases n <;> simp [lexFrom]⟩
  | cons c cs ih =>
    cases n with
    | zero => exact ⟨position, rfl⟩
    | succ n =>
      rw [lexFrom]
      exact ih (position + 1) n

theorem Lexes.complete {cs : List Char} {bs : List Body} (h : Lexes cs bs) (position : Nat) :
    ∃ xs, lexFrom position 0 cs = .ok xs ∧ bodies xs = bs := by
  induction h generalizing position with
  | nil => exact ⟨[], by rw [lexFrom], rfl⟩
  | @cons c cs b n bs hb _ ih =>
    obtain ⟨position', hp⟩ := lexFrom_passed (position + 1) n cs
    obtain ⟨xs, hx, e⟩ := ih position'
    exact ⟨⟨b, position⟩ :: xs, by simp [lexFrom, hb, hp, hx], by rw [bodies_cons, e]⟩
  | @comment c cs n bs hb _ ih =>
    obtain ⟨position', hp⟩ := lexFrom_passed (position + 1) n cs
    obtain ⟨xs, hx, e⟩ := ih position'
    exact ⟨xs, by simp [lexFrom, hb, hp, hx], e⟩

theorem lexes_of_lexFrom {position : Nat} {cs : List Char} {xs : List Lexeme}
    (h : lexFrom position 0 cs = .ok xs) : Lexes cs (bodies xs) := by
  induction hn : cs.length using Nat.strong_induction_on generalizing position cs xs with
  | _ n ih =>
    cases cs with
    | nil =>
      rw [lexFrom] at h
      cases h
      exact .nil
    | cons c cs =>
      rw [lexFrom] at h
      split at h
      · cases h
      · rename_i body passed hb
        split at h
        · cases h
        · rename_i rest hr
          obtain ⟨position', hp⟩ := lexFrom_passed (position + 1) passed cs
          rw [hp] at hr
          have hl : (cs.drop passed).length < n := by
            rw [← hn, List.length_drop, List.length_cons]
            omega
          have hs := ih _ hl hr rfl
          cases h
          cases body with
          | none => exact .comment (lexeme_position hb) hs
          | some b => exact .cons (lexeme_position hb) hs

theorem lex_eq {cs : List Char} (h : '\x00' ∉ cs) : lex cs = lexFrom 0 0 cs := by
  have e : ∀ c ∈ cs, (if c = '\x00' then '\uFFFD' else c) = c := by
    intro c hc
    refine if_neg ?_
    rintro rfl
    exact h hc
  rw [lex, List.map_congr_left e, List.map_id']

end SyntaxQuery.Selector
