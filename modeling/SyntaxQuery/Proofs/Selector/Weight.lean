import Mathlib.Algebra.Ring.Nat
import SyntaxQuery.Proofs.Selector.Lexing
import SyntaxQuery.Proofs.Selector.Plain

namespace SyntaxQuery.Selector

/-- What a character adds to the weight of a text: nothing if lexing can lose it or rendering can
bring it in without a change of meaning. A numeric escape is heavier than its character: one digit
of base sixteen stands for a character without weight, and more of them outweigh any. -/
def weight (c : Char) : Nat :=
  if c ∈ ['\\', '"', ' ', '\uFFFD'] ∨ 0 < c.toNat ∧ c.toNat < 16 then 0 else 1

def weigh (cs : List Char) : Nat :=
  (cs.map weight).sum

@[simp] theorem weigh_nil : weigh [] = 0 := rfl

@[simp] theorem weigh_cons (c : Char) (cs : List Char) : weigh (c :: cs) = weight c + weigh cs := by
  simp [weigh]

@[simp] theorem weigh_append (cs ds : List Char) : weigh (cs ++ ds) = weigh cs + weigh ds := by
  simp [weigh]

theorem weigh_take_drop (n : Nat) (cs : List Char) :
    weigh (cs.take n) + weigh (cs.drop n) = weigh cs := by
  rw [← weigh_append, List.take_append_drop]

@[simp] theorem weight_backslash : weight '\\' = 0 := by
  decide

theorem weigh_take_succ (n : Nat) (cs : List Char) :
    weigh (cs.take n) ≤ weigh (cs.take (n + 1)) := by
  have := weigh_take_drop n (cs.take (n + 1))
  rw [List.take_take, Nat.min_eq_left (Nat.le_succ n)] at this
  omega

theorem weight_le_one (c : Char) : weight c ≤ 1 := by
  rw [weight]
  split <;> decide

theorem weight_gap {c : Char} (h : isGap c = true) : weight c = 0 := by
  simp only [isGap, isLineEnd, Bool.or_eq_true, decide_eq_true_eq] at h
  obtain (rfl | rfl) | (rfl | rfl) | rfl := h <;> decide

theorem weight_lineEnd {c : Char} (h : isLineEnd c = true) : weight c = 0 :=
  weight_gap (by rw [isGap, h, Bool.or_true])

theorem isHex_iff {c : Char} : isHex c = true ↔ 48 ≤ c.toNat ∧ c.toNat ≤ 57 ∨
    97 ≤ c.toNat ∧ c.toNat ≤ 102 ∨ 65 ≤ c.toNat ∧ c.toNat ≤ 70 := by
  simp only [isHex, Bool.or_eq_true, Bool.and_eq_true, decide_eq_true_eq, isDigit_iff, or_assoc]
  rfl

theorem weight_hex {c : Char} (h : isHex c = true) : weight c = 1 := by
  refine if_neg (not_or.mpr ⟨fun hm => ?_, fun hm => ?_⟩)
  · simp only [List.mem_cons, List.not_mem_nil, or_false] at hm
    obtain rfl | rfl | rfl | rfl := hm <;> revert h <;> decide
  · rw [isHex_iff] at h
    omega

theorem weigh_hexRun (limit : Nat) (cs : List Char) :
    weigh (cs.take (hexRun limit cs)) = hexRun limit cs := by
  induction cs generalizing limit with
  | nil => cases limit <;> rfl
  | cons c cs ih =>
    cases limit with
    | zero => rfl
    | succ limit =>
      rw [hexRun]
      split
      · rw [List.take_succ_cons, weigh_cons, ih, weight_hex ‹_›, Nat.add_comm]
      · rfl

theorem hexValue_lt {c : Char} (h : isHex c = true) : hexValue c < 16 := by
  rw [isHex_iff] at h
  unfold hexValue
  simp only [isDigit_iff, Bool.and_eq_true, decide_eq_true_eq]
  change (if 48 ≤ c.toNat ∧ c.toNat ≤ 57 then _ else if 97 ≤ c.toNat ∧ c.toNat ≤ 102 then _ else _) <
    16
  split_ifs <;> omega

theorem weight_charOf {n : Nat} (h : n < 16) : weight (charOf n) = 0 := by
  revert n
  decide

theorem numericLength_eq {cs : List Char} (h : numericLength cs ≠ 0) :
    hexRun 6 cs ≠ 0 ∧ hexRun 6 cs ≤ numericLength cs := by
  unfold numericLength at h ⊢
  dsimp only at h ⊢
  split
  · rename_i h0
    exact (h (if_pos h0)).elim
  · exact ⟨‹_›, Nat.le_add_right _ _⟩

theorem isHex_of_numericLength {cs : List Char} (h : numericLength cs = 0) :
    ∀ d ∈ cs.head?, isHex d = false := by
  intro d hd
  obtain ⟨ds, rfl⟩ : ∃ ds, cs = d :: ds := by
    cases cs with
    | nil => cases hd
    | cons c cs => exact ⟨cs, by rw [Option.some.inj hd]⟩
  by_contra hx
  rw [Bool.not_eq_false] at hx
  have hr : hexRun 6 (d :: ds) ≠ 0 := by simp [hexRun, hx]
  rw [numericLength, if_neg hr] at h
  omega

theorem weight_lt_escape {cs : List Char} (h : numericLength cs ≠ 0) :
    weight (charOf (hexNumber (hexRun 6 cs) cs)) < weigh (cs.take (numericLength cs)) := by
  obtain ⟨hn, hle⟩ := numericLength_eq h
  have hw : hexRun 6 cs ≤ weigh (cs.take (numericLength cs)) := by
    have ht := weigh_take_drop (hexRun 6 cs) (cs.take (numericLength cs))
    rw [List.take_take, Nat.min_eq_left hle, weigh_hexRun] at ht
    omega
  by_cases h1 : hexRun 6 cs = 1
  · have hv : hexNumber 1 cs < 16 := by
      cases cs with
      | nil => decide
      | cons c cs =>
        have hc : isHex c = true := by
          by_contra hc
          rw [hexRun, if_neg hc] at h1
          cases h1
        simpa [hexNumber] using hexValue_lt hc
    rw [h1, weight_charOf hv]
    omega
  · have := weight_le_one (charOf (hexNumber (hexRun 6 cs) cs))
    omega

/-- Resolving numeric escapes makes a text no heavier, and lighter if there is one to resolve. -/
theorem weigh_resolveNumeric (passed : Nat) (cs : List Char) :
    weigh (resolveNumeric passed cs) ≤ weigh (cs.drop passed) ∧
      (weigh (resolveNumeric passed cs) = weigh (cs.drop passed) →
        NoHexEscape (cs.drop passed)) := by
  -- an escape is passed over as a whole, hence the claim for any number of characters passed
  induction cs generalizing passed with
  | nil => cases passed <;> exact ⟨Nat.le_refl _, fun _ => .nil⟩
  | cons c cs ih =>
    cases passed with
    | succ passed => exact ih passed
    | zero =>
      rw [resolveNumeric, List.drop_zero]
      split
      · rename_i he
        rw [Bool.and_eq_true, decide_eq_true_iff, decide_eq_true_iff] at he
        have hl := weight_lt_escape he.2
        have hr := (ih (numericLength cs)).1
        have ht := weigh_take_drop (numericLength cs) cs
        rw [weigh_cons, weigh_cons]
        constructor
        · omega
        · intro h
          omega
      · rename_i he
        obtain ⟨hle, hx⟩ := ih 0
        rw [List.drop_zero] at hle hx
        rw [weigh_cons, weigh_cons]
        refine ⟨Nat.add_le_add_left hle _, fun h => ?_⟩
        refine List.isChain_cons.mpr ⟨fun d hd hc => ?_, hx (Nat.add_left_cancel h)⟩
        have hz : numericLength cs = 0 := by simpa [hc] using he
        exact isHex_of_numericLength hz d hd

theorem resolveSimple_sublist (cs : List Char) : (resolveSimple cs).Sublist cs := by
  induction cs using resolveSimple.induct with
  | case1 cs ih =>
    rw [resolveSimple]
    exact (ih.cons_cons _).cons_cons _
  | case2 c cs hc ih =>
    rw [resolveSimple_escape hc]
    exact (ih.cons_cons c).cons _
  | case3 c cs h₁ h₂ ih =>
    rw [resolveSimple]
    · exact ih.cons_cons c
    all_goals assumption
  | case4 => exact .slnil

theorem dropLineEnds_sublist (cs : List Char) : (dropLineEnds cs).Sublist cs := by
  induction cs using dropLineEnds.induct with
  | case1 cs ih =>
    rw [dropLineEnds]
    exact ((ih.cons _).cons _).cons _
  | case2 c cs hne hc ih =>
    rw [dropLineEnds, if_pos hc]
    · exact (ih.cons _).cons _
    · exact hne
  | case3 c cs hne hc ih =>
    rw [dropLineEnds, if_neg hc]
    · exact ih.cons_cons _
    · exact hne
  | case4 c cs h₁ h₂ ih =>
    rw [dropLineEnds]
    · exact ih.cons_cons c
    all_goals assumption
  | case5 => exact .slnil

theorem sum_resolveSimple {g : Char → Nat} (hb : g '\\' = 0) (cs : List Char) :
    ((resolveSimple cs).map g).sum = (cs.map g).sum := by
  induction cs using resolveSimple.induct with
  | case1 cs ih => simp [resolveSimple, ih]
  | case2 c cs hc ih => simp [resolveSimple_escape hc, ih, hb]
  | case3 c cs h₁ h₂ ih => rw [resolveSimple] <;> simp_all
  | case4 => rfl

theorem sum_dropLineEnds {g : Char → Nat} (hb : g '\\' = 0)
    (hl : ∀ c, isLineEnd c = true → g c = 0) (cs : List Char) :
    ((dropLineEnds cs).map g).sum = (cs.map g).sum := by
  induction cs using dropLineEnds.induct with
  | case1 cs ih => simp [dropLineEnds, ih, hb, hl '\r' rfl, hl '\n' rfl]
  | case2 c cs hne hc ih =>
    rw [dropLineEnds, if_pos hc, ih]
    · simp [hb, hl c hc]
    · exact hne
  | case3 c cs hne hc ih =>
    rw [dropLineEnds, if_neg hc, List.map_cons, List.sum_cons, ih]
    · simp
    · exact hne
  | case4 c cs h₁ h₂ ih => rw [dropLineEnds] <;> simp_all
  | case5 => rfl

theorem weigh_unescapeName (cs : List Char) : weigh (unescapeName cs) ≤ weigh cs ∧
    (weigh (unescapeName cs) = weigh cs → NoHexEscape cs) := by
  have hs : weigh (unescapeName cs) = weigh (resolveNumeric 0 cs) :=
    sum_resolveSimple weight_backslash _
  rw [hs]
  exact weigh_resolveNumeric 0 cs

theorem weigh_unescapeQuoted (cs : List Char) : weigh (unescapeQuoted cs) ≤ weigh cs ∧
    (weigh (unescapeQuoted cs) = weigh cs → NoHexEscape (dropLineEnds cs)) := by
  have hd : weigh (dropLineEnds cs) = weigh cs :=
    sum_dropLineEnds weight_backslash (fun _ => weight_lineEnd) cs
  rw [unescapeQuoted, ← hd]
  exact weigh_unescapeName (dropLineEnds cs)

inductive Scans (c : Char) (cs : List Char) : Option Body → Nat → Prop where
  | blank (h : isGap c = true) : Scans c cs (some .blank) (cs.takeWhile isGap).length
  | ident {n : Nat} (h : identLength (c :: cs) = n + 1) :
      Scans c cs (some (.ident (String.ofList (unescapeName (c :: cs.take n))))) n
  | hash {n : Nat} (hc : c = '#') (h : nameRun 0 cs = n) (hn : n ≠ 0) :
      Scans c cs (some (.hash (String.ofList (unescapeName (cs.take n))))) n
  | string {n : Nat} {rest : List Char} (hc : c = '"' ∨ c = '\'') (h : cs.drop n = c :: rest) :
      Scans c cs (some (.string (String.ofList (unescapeQuoted (cs.take n))))) (n + 1)
  | number {n : Nat} (h : numberLength (c :: cs) = n + 1) :
      Scans c cs (some (.number (String.ofList (c :: cs.take n)))) n
  | comment {n : Nat} (hc : c = '/') : Scans c cs none n
  | delim : Scans c cs (some (.delim c)) 0

theorem lexeme_scans {position : Nat} {c : Char} {cs : List Char} {b : Option Body} {n : Nat}
    (h : lexeme position c cs = .ok (b, n)) : Scans c cs b n := by
  unfold lexeme at h
  dsimp only at h
  split at h
  · cases h
    exact .blank ‹_›
  split at h
  · rename_i hi
    obtain ⟨m, hm⟩ := Nat.exists_eq_succ_of_ne_zero hi
    rw [hm] at h
    cases h
    exact .ident hm
  split at h
  · rename_i hc
    rw [Bool.and_eq_true, decide_eq_true_iff, decide_eq_true_iff] at hc
    cases h
    exact .hash hc.1 rfl hc.2
  split at h
  · rename_i hc
    split at h
    · cases h
    · rename_i rest hd
      split at h
      · rename_i hm
        cases h
        exact .string (by simpa using hc) (hm ▸ hd)
      · cases h
  split at h
  · rename_i hi
    obtain ⟨m, hm⟩ := Nat.exists_eq_succ_of_ne_zero hi
    rw [hm] at h
    cases h
    exact .number hm
  split at h
  · rename_i hc
    rw [Bool.and_eq_true, decide_eq_true_iff] at hc
    cases h
    exact .comment hc.1
  · cases h
    exact .delim

def Body.weigh : Body → Nat
  | blank => 0
  | ident name => Selector.weigh name.toList
  | hash name => weight '#' + Selector.weigh name.toList
  | string text => Selector.weigh text.toList
  | number text => Selector.weigh text.toList
  | delim c => weight c

@[simp] theorem Body.weigh_ident (name : String) :
    (Body.ident name).weigh = Selector.weigh name.toList := rfl

@[simp] theorem Body.weigh_hash (name : String) :
    (Body.hash name).weigh = weight '#' + Selector.weigh name.toList := rfl

@[simp] theorem Body.weigh_delim (c : Char) : (Body.delim c).weigh = weight c := rfl

def weighBodies (bs : List Body) : Nat :=
  (bs.map Body.weigh).sum

@[simp] theorem weighBodies_nil : weighBodies [] = 0 := rfl

@[simp] theorem weighBodies_cons (b : Body) (bs : List Body) :
    weighBodies (b :: bs) = b.weigh + weighBodies bs := by
  simp [weighBodies]

@[simp] theorem weighBodies_append (as bs : List Body) :
    weighBodies (as ++ bs) = weighBodies as + weighBodies bs := by
  simp [weighBodies]

theorem Scans.weigh_le {c : Char} {cs : List Char} {b : Body} {n : Nat}
    (h : Scans c cs (some b) n) : b.weigh ≤ weigh (c :: cs.take n) := by
  cases h with
  | blank h => exact Nat.zero_le _
  | ident h =>
    rw [Body.weigh, String.toList_ofList]
    exact (weigh_unescapeName _).1
  | hash hc h =>
    rw [Body.weigh, String.toList_ofList, weigh_cons, hc]
    exact Nat.add_le_add_left (weigh_unescapeName _).1 _
  | @string n rest hc h =>
    have hw := (weigh_unescapeQuoted (cs.take n)).1
    have ht := weigh_take_succ n cs
    rw [Body.weigh, String.toList_ofList, weigh_cons]
    omega
  | number h => rw [Body.weigh, String.toList_ofList]
  | delim => exact Nat.le_refl _

theorem Scans.comment_weigh {c : Char} {cs : List Char} {n : Nat} (h : Scans c cs none n) :
    weigh (c :: cs.take n) ≠ 0 := by
  cases h with
  | comment hc =>
    subst hc
    rw [weigh_cons]
    exact Nat.ne_of_gt (Nat.add_pos_left (by decide) _)

theorem Lexes.weigh_le {cs : List Char} {bs : List Body} (h : Lexes cs bs) :
    weighBodies bs ≤ weigh cs := by
  induction h with
  | nil => exact Nat.le_refl _
  | @cons c cs b n bs hb _ ih =>
    have hw := (lexeme_scans (hb 0)).weigh_le
    have ht := weigh_take_drop n cs
    rw [weigh_cons] at hw
    rw [weighBodies_cons, weigh_cons]
    omega
  | @comment c cs n bs hb _ ih =>
    have ht := weigh_take_drop n cs
    rw [weigh_cons]
    omega

/-- A text is lexed without a loss: no comment stands in it and no numeric escape takes effect. -/
structure Tight (cs : List Char) (bs : List Body) : Prop where
  lexes : Lexes cs bs
  weigh_eq : weigh cs = weighBodies bs

theorem Tight.cons {cs : List Char} {b : Body} {bs : List Body} (h : Tight cs (b :: bs)) :
    ∃ c ds n, cs = c :: ds ∧ lexeme 0 c ds = .ok (some b, n) ∧
      weigh (c :: ds.take n) = b.weigh ∧ Tight (ds.drop n) bs := by
  obtain ⟨hl, hw⟩ := h
  cases hl with
  | @cons c cs _ n _ hb hs =>
    have hle := (lexeme_scans (hb 0)).weigh_le
    have hr := hs.weigh_le
    have ht := weigh_take_drop n cs
    rw [weigh_cons, weighBodies_cons] at hw
    rw [weigh_cons] at hle
    exact ⟨c, cs, n, rfl, hb 0, by rw [weigh_cons]; omega, hs, by omega⟩
  | @comment c cs n _ hb hs =>
    have hne := (lexeme_scans (hb 0)).comment_weigh
    have hr := hs.weigh_le
    have ht := weigh_take_drop n cs
    rw [weigh_cons] at hne hw
    omega

theorem Blanks.weigh {s : List Body} (hs : Blanks s) : weighBodies s = 0 := by
  induction s with
  | nil => rfl
  | cons b s ih =>
    rw [weighBodies_cons, hs b List.mem_cons_self, ih fun b hb => hs b (List.mem_cons_of_mem _ hb)]
    rfl

theorem IsValue.weigh {v : Body} {text : String} (hv : IsValue v text) :
    v.weigh = Selector.weigh text.toList := by
  cases hv <;> rfl

theorem IsOperator.weigh {o : List Body} {operator : String} (ho : IsOperator o operator) :
    Selector.weigh operator.toList = weighBodies o := by
  cases ho with
  | equal => rfl
  | marked hc =>
    rw [String.toList_ofList]
    rfl

theorem weigh_escaped (cs : List Char) : weigh (escaped cs) = weigh cs := by
  induction cs with
  | nil => rfl
  | cons c cs ih =>
    by_cases hc : c = '\\' ∨ c = '"'
    · simp [escaped_mark hc, ih]
    · simp [escaped_plain hc, ih]

theorem weigh_renderValue (text : String) :
    weigh (renderValue (some (.text text))).toList = weigh text.toList := by
  have hq : weight '"' = 0 := by decide
  rw [renderValue_text]
  split
  · rfl
  · rw [String.toList_ofList, enquote_eq]
    simp [weigh_escaped, hq]

theorem IsFlag.weigh {f : List Body} {flag : Option String} (hf : IsFlag f flag) :
    Selector.weigh (renderFlag flag).toList = weighBodies f := by
  cases hf with
  | absent => rfl
  | @present flag s h hs =>
    have hb : weight ' ' = 0 := by decide
    simp [renderFlag_some h, hs.weigh, hb]

theorem IsSimple.weigh {zs : List Body} {t : Token} (h : IsSimple zs t) :
    Selector.weigh t.render.toList = weighBodies zs := by
  cases h with
  | className | id | pseudoClass | pseudoElement => simp [Token.render]
  | call name h₁ hv h₂ =>
    simp [Token.render, Scalar.display, h₁.weigh, hv.weigh, h₂.weigh]
  | presence name h₁ h₂ => simp [Token.render, h₁.weigh, h₂.weigh]
  | comparison name h₁ h₂ ho h₃ hv h₄ hf =>
    simp [Token.render, h₁.weigh, h₂.weigh, ho.weigh, h₃.weigh, hv.weigh, h₄.weigh,
      hf.weigh, weigh_renderValue]

theorem render_append (ts us : List Token) : render (ts ++ us) = render ts ++ render us := by
  induction ts with
  | nil => simp [render]
  | cons t ts ih => rw [List.cons_append, render, render, ih, String.append_assoc]

theorem IsCompound.weigh {zs : List Body} {ts : List Token} (h : IsCompound zs ts) :
    Selector.weigh (render ts).toList = weighBodies zs := by
  induction h with
  | one h => simp [render, h.weigh]
  | more h _ ih => simp [render, h.weigh, ih]

theorem IsCombinator.weigh {zs : List Body} {content : String} (h : IsCombinator zs content) :
    Selector.weigh (Token.combinator content).render.toList = weighBodies zs := by
  have hb : weight ' ' = 0 := by decide
  cases h with
  | blanks hs hne => simp [Token.render, hs.weigh, descendant, hb]
  | written h₁ ho h₂ =>
    cases ho <;>
      simp [Token.render, h₁.weigh, h₂.weigh, descendant, child, nextSibling, previousSibling,
        column, hb]

theorem IsChain.weigh {zs : List Body} {ts : List Token} (h : IsChain zs ts) :
    Selector.weigh (render ts).toList = weighBodies zs := by
  induction h with
  | last h => exact h.weigh
  | join h hc _ ih => simp [render_append, render, h.weigh, hc.weigh, ih]

/-- What the grammar reads off lexemes is rendered as a text of the same weight. -/
theorem Derives.weigh {zs : List Body} {ts : List Token} (h : Derives zs ts) :
    Selector.weigh (render ts).toList = weighBodies zs := by
  cases h with
  | blank hs => rw [hs.weigh]; rfl
  | chain h₁ h h₂ => simp [h₁.weigh, h.weigh, h₂.weigh]

theorem weigh_replace (cs : List Char) :
    weigh (cs.map fun c => if c = '\x00' then '\uFFFD' else c) + cs.count '\x00' = weigh cs := by
  induction cs with
  | nil => rfl
  | cons c cs ih =>
    rw [List.map_cons, weigh_cons, weigh_cons, List.count_cons, ← ih]
    by_cases hc : c = '\x00'
    · subst hc
      have h₀ : weight '\x00' = 1 := by decide
      have h₁ : weight '\uFFFD' = 0 := by decide
      simp [h₀, h₁]
      omega
    · simp [hc, Nat.add_assoc]

/-- Where a rendered text is read back as the same tokens, it is lexed without a loss. -/
theorem tight_of_parse_render {ts : List Token} (h : parse (render ts) = .ok ts) :
    '\x00' ∉ (render ts).toList ∧ ∃ bs, Derives bs ts ∧ Tight (render ts).toList bs := by
  obtain ⟨xs, hx, hr⟩ := parse_eq_ok.mp h
  have hd := readTokens_eq_ok.mp hr
  have hl := lexes_of_lexFrom hx
  -- the lexemes weigh what the tokens weigh, which leaves no weight for null characters
  have hle := hl.weigh_le
  have hw := weigh_replace (render ts).toList
  rw [hd.weigh] at hw
  have hn : '\x00' ∉ (render ts).toList := List.count_eq_zero.mp (by omega)
  rw [lex_eq hn] at hx
  exact ⟨hn, _, hd, lexes_of_lexFrom hx, hd.weigh⟩

end SyntaxQuery.Selector
