import SyntaxQuery.Proofs.Selector.Lexing
import SyntaxQuery.Proofs.Selector.Plain

namespace SyntaxQuery.Selector

section

variable {rest : List Char} {bs : List Body}

theorem lexes_ident {name : String} (hn : isPlainName name.toList = true) (hr : EndsName rest)
    (hs : Lexes rest bs) : Lexes (name.toList ++ rest) (.ident name :: bs) := by
  cases e : name.toList with
  | nil =>
    rw [e] at hn
    cases hn
  | cons c cs =>
    rw [e] at hn
    have hi : name = String.ofList (c :: cs) := by rw [← e, String.ofList_toList]
    rw [hi, List.cons_append]
    exact .cons (fun position => lexeme_ident position hn hr) (by rwa [List.drop_left])

theorem lexes_hash {name : String} (hne : name ≠ "") (hn : name.toList.all isNameChar = true)
    (hr : EndsName rest) (hs : Lexes rest bs) :
    Lexes ('#' :: (name.toList ++ rest)) (.hash name :: bs) := by
  have hne : name.toList ≠ [] := fun h => hne (String.toList_eq_nil_iff.mp h)
  have h := fun position => lexeme_hash position hne hn hr
  rw [String.ofList_toList] at h
  exact .cons h (by rwa [List.drop_left])

theorem lexes_number {text : String} (hn : IsNumber text.toList) (hr : EndsNumber rest)
    (hs : Lexes rest bs) : Lexes (text.toList ++ rest) (.number text :: bs) := by
  obtain ⟨c, cs, e⟩ := List.exists_cons_of_ne_nil hn.ne_nil
  rw [e] at hn
  have hi : text = String.ofList (c :: cs) := by rw [← e, String.ofList_toList]
  rw [e, hi, List.cons_append]
  exact .cons (fun position => lexeme_number position hn hr) (by rwa [List.drop_left])

theorem lexes_string {text : String} (hq : IsQuotable text.toList) (hs : Lexes rest bs) :
    Lexes (enquote text.toList ++ rest) (.string text :: bs) := by
  have h : ∀ position, lexeme position '"' (escaped text.toList ++ '"' :: rest) = _ :=
    fun position => lexeme_string position hq.lines
  rw [unescapeQuoted_escaped hq.lines hq.escapes, String.ofList_toList] at h
  rw [enquote_eq, List.cons_append, List.append_assoc]
  refine .cons h ?_
  rwa [← List.append_assoc, List.drop_left' (by simp)]

theorem lexes_mark {c : Char} (hc : isMark c = true) (hp : c = '+' → EndsNumber rest)
    (hf : c = '.' → ∀ d ∈ rest.head?, d.isDigit = false) (hs : Lexes rest bs) :
    Lexes (c :: rest) (.delim c :: bs) :=
  .cons (fun position => lexeme_mark position hc (numberLength_mark hc hp hf)) hs

theorem lexes_blank (hr : ∀ c ∈ rest.head?, isGap c = false) (hs : Lexes rest bs) :
    Lexes (' ' :: rest) (.blank :: bs) :=
  .cons (fun position => lexeme_space position hr) hs

theorem lexes_name_or_number {text : String}
    (ht : isPlainName text.toList = true ∨ IsNumber text.toList) :
    ∃ v, IsValue v text ∧ ∀ {rest bs}, Closes rest → Lexes rest bs →
      Lexes (text.toList ++ rest) (v :: bs) := by
  obtain hn | hn := ht
  · exact ⟨_, .ident text, fun hr hs => lexes_ident hn hr.endsName hs⟩
  · exact ⟨_, .number text, fun hr hs => lexes_number hn hr.endsNumber hs⟩

theorem lexes_value {text : String} (hq : IsQuotable text.toList) :
    ∃ v, IsValue v text ∧ ∀ {rest bs}, Closes rest → Lexes rest bs →
      Lexes ((renderValue (some (.text text))).toList ++ rest) (v :: bs) := by
  rw [renderValue_text]
  split
  · rename_i hb
    obtain ⟨core, hc | hc, hn⟩ := isBare_cases hb
    · rw [← hc] at hn
      exact lexes_name_or_number hn
    · have := hq.lines '\n' (by simp [hc])
      cases this
  · refine ⟨_, .string text, fun _ hs => ?_⟩
    rw [String.toList_ofList]
    exact lexes_string hq hs

theorem isMark_of_mem {c : Char} (h : c ∈ ['~', '|', '^', '$', '*']) :
    isMark c = true ∧ c ≠ '+' ∧ c ≠ '.' := by
  simp only [List.mem_cons, List.not_mem_nil, or_false] at h
  obtain rfl | rfl | rfl | rfl | rfl := h <;> decide

theorem endsName_mark {c : Char} (hc : isMark c = true) : EndsName (c :: rest) :=
  forall_head ⟨(isMark_ne hc).2.1, (isMark_ne hc).2.2.1⟩

theorem isMark_operator {operator : String} (ho : operator ∈ operators) :
    ∀ c ∈ (operator.toList ++ rest).head?, isMark c = true := by
  obtain rfl | ⟨d, hd, rfl⟩ := isOperator_of_mem ho
  · exact forall_head (by decide)
  · rw [String.toList_ofList]
    exact forall_head (isMark_of_mem hd).1

theorem operator_endsName {operator : String} (ho : operator ∈ operators) :
    EndsName (operator.toList ++ rest) := by
  intro c hc
  have hm := isMark_ne (isMark_operator ho c hc)
  exact ⟨hm.2.1, hm.2.2.1⟩

theorem lexes_operator {operator : String} (ho : operator ∈ operators) :
    ∃ o, IsOperator o operator ∧
      ∀ {rest bs}, Lexes rest bs → Lexes (operator.toList ++ rest) (o ++ bs) := by
  have he : ∀ {rest bs}, Lexes rest bs → Lexes ('=' :: rest) (.delim '=' :: bs) :=
    fun hs => lexes_mark (by decide) (absurd · (by decide)) (absurd · (by decide)) hs
  obtain rfl | ⟨c, hc, rfl⟩ := isOperator_of_mem ho
  · exact ⟨_, .equal, he⟩
  · obtain ⟨hm, hp, hf⟩ := isMark_of_mem hc
    refine ⟨_, .marked hc, fun hs => ?_⟩
    rw [String.toList_ofList]
    exact lexes_mark hm (absurd · hp) (absurd · hf) (he hs)

theorem lexes_flag {flag : Option String} (hf : ∀ f ∈ flag, f ∈ caseFlags) :
    ∃ s f, Blanks s ∧ IsFlag f flag ∧ ∀ {rest bs}, Lexes (']' :: rest) bs →
      Lexes ((renderFlag flag).toList ++ ']' :: rest) (s ++ (f ++ bs)) := by
  cases flag with
  | none => exact ⟨[], [], blanks_nil, .absent, fun hs => hs⟩
  | some f =>
    have hm := hf f rfl
    have hn := isPlainName_flag hm
    refine ⟨[.blank], [.ident f], by simp [Blanks], .present hm blanks_nil, fun hs => ?_⟩
    rw [renderFlag_some hm]
    exact lexes_blank (fun d hd => (isPlainName_head hn d hd).1)
      (lexes_ident hn (endsName_mark (by decide)) hs)

theorem lexes_bracket {c : Char} (hc : isMark c = true ∧ c ≠ '+' ∧ c ≠ '.')
    (hs : Lexes rest bs) : Lexes (c :: rest) (.delim c :: bs) :=
  lexes_mark hc.1 (absurd · hc.2.1) (absurd · hc.2.2) hs

/-- A plain token is lexed as lexemes that the grammar reads as that token. -/
theorem lexes_simple {t : Token} (ht : IsPlain t) (hc : t.isCombinator = false) :
    ∃ zs, IsSimple zs t ∧ ∀ {rest bs}, Opens rest → Lexes rest bs →
      Lexes (t.render.toList ++ rest) (zs ++ bs) := by
  cases ht with
  | @className name h =>
    refine ⟨_, .className name, fun hr hs => ?_⟩
    rw [Token.render, String.toList_append]
    exact lexes_mark (by decide) (absurd · (by decide)) (fun _ d hd => (isPlainName_head h d hd).2)
      (lexes_ident h hr.endsName hs)
  | @id name hne h =>
    refine ⟨_, .id name, fun hr hs => ?_⟩
    rw [Token.render, String.toList_append]
    exact lexes_hash hne h hr.endsName hs
  | @presence name h =>
    refine ⟨_, .presence name blanks_nil blanks_nil, fun hr hs => ?_⟩
    rw [Token.render, String.toList_append, String.toList_append, List.append_assoc,
      List.append_assoc]
    have hb := lexes_bracket (c := ']') (by decide) hs
    exact lexes_bracket (by decide) (lexes_ident h (endsName_mark (by decide)) hb)
  | @comparison name operator value flag h ho hv hf =>
    obtain ⟨o, hio, hlo⟩ := lexes_operator ho
    obtain ⟨v, hiv, hlv⟩ := lexes_value hv
    obtain ⟨s, f, hs, hif, hlf⟩ := lexes_flag hf
    refine ⟨_, .comparison name blanks_nil blanks_nil hio blanks_nil hiv hs hif, fun hr hs => ?_⟩
    have hb := lexes_bracket (c := ']') (by decide) hs
    have hv := hlv (closes_flag hf _) (hlf hb)
    have hl := lexes_bracket (c := '[') (by decide) (lexes_ident h (operator_endsName ho) (hlo hv))
    simpa [Token.render] using hl
  | combinator h => cases hc
  | @pseudoClass name h =>
    refine ⟨_, .pseudoClass name, fun hr hs => ?_⟩
    rw [Token.render, String.toList_append]
    exact lexes_bracket (by decide) (lexes_ident h hr.endsName hs)
  | @call name argument h ha =>
    obtain ⟨v, hiv, hv⟩ := lexes_name_or_number ha
    refine ⟨_, .call name blanks_nil hiv blanks_nil, fun hr hs => ?_⟩
    have hb := lexes_bracket (c := ')') (by decide) hs
    have hl := lexes_bracket (c := ':') (by decide) (lexes_ident h (endsName_mark (by decide))
      (lexes_bracket (c := '(') (by decide) (hv ⟨')', _, rfl, .inr (.inl rfl)⟩ hb)))
    simpa [Token.render, Scalar.display] using hl
  | @pseudoElement name h =>
    refine ⟨_, .pseudoElement name, fun hr hs => ?_⟩
    rw [Token.render, String.toList_append]
    exact lexes_bracket (by decide) (lexes_bracket (by decide) (lexes_ident h hr.endsName hs))

theorem IsSimple.opens {zs : List Body} {t : Token} (hz : IsSimple zs t) :
    OpensSimple t.render.toList := by
  cases hz <;> simp only [Token.render, String.toList_append] <;> exact ⟨_, _, rfl, by decide⟩

theorem opens_token {t : Token} (ht : IsPlain t) (hc : t.isCombinator = false) :
    OpensSimple t.render.toList := by
  obtain ⟨zs, hz, -⟩ := lexes_simple ht hc
  exact hz.opens

theorem lexes_symbol {o : List Body} {content : String} (ho : IsSymbol o content)
    (hs : Lexes (' ' :: rest) bs) : Lexes (content.toList ++ ' ' :: rest) (o ++ bs) := by
  have hp : EndsNumber (' ' :: rest) := forall_head (by decide)
  cases ho with
  | child | previous => exact lexes_bracket (by decide) hs
  | next => exact lexes_mark (by decide) (fun _ => hp) (absurd · (by decide)) hs
  | column => exact lexes_bracket (by decide) (lexes_bracket (by decide) hs)

theorem isSymbol_of_mem {content : String}
    (h : content ∈ [descendant, child, nextSibling, previousSibling, column]) :
    content = descendant ∨ content ≠ descendant ∧ ∃ o, IsSymbol o content := by
  simp only [List.mem_cons, List.not_mem_nil, or_false] at h
  obtain rfl | rfl | rfl | rfl | rfl := h
  · exact .inl rfl
  · exact .inr ⟨by decide, _, .child⟩
  · exact .inr ⟨by decide, _, .next⟩
  · exact .inr ⟨by decide, _, .previous⟩
  · exact .inr ⟨by decide, _, .column⟩

theorem IsSymbol.head {o : List Body} {content : String} (ho : IsSymbol o content) :
    ∀ d ∈ (content.toList ++ rest).head?, isGap d = false := by
  cases ho <;> exact forall_head (by decide)

theorem lexes_combinator {content : String}
    (h : content ∈ [descendant, child, nextSibling, previousSibling, column]) :
    ∃ zs, IsCombinator zs content ∧ ∀ {rest bs}, (∀ d ∈ rest.head?, isGap d = false) →
      Lexes rest bs → Lexes ((Token.combinator content).render.toList ++ rest) (zs ++ bs) := by
  obtain rfl | ⟨hne, o, ho⟩ := isSymbol_of_mem h
  · refine ⟨[.blank], .blanks (by simp [Blanks]) (by simp), fun hr hs => ?_⟩
    exact lexes_blank hr hs
  · refine ⟨[.blank] ++ (o ++ [.blank]), .written (by simp [Blanks]) ho (by simp [Blanks]),
      fun hr hs => ?_⟩
    have hl := lexes_blank ho.head (lexes_symbol ho (lexes_blank hr hs))
    simpa [Token.render, hne] using hl

end

theorem opens_render {ts : List Token} (hp : ∀ t ∈ ts, IsPlain t) : Opens (render ts).toList := by
  cases ts with
  | nil =>
    intro c hc
    cases hc
  | cons t ts =>
    rw [render, String.toList_append]
    cases hc : t.isCombinator with
    | false => exact ((opens_token (hp t List.mem_cons_self) hc).append _).opens
    | true =>
      cases t with
      | combinator content => exact opens_combinator content
      | _ => cases hc

theorem lexes_render {t : Token} {ts : List Token} (hw : WellPlaced (t :: ts))
    (hp : ∀ u ∈ t :: ts, IsPlain u) :
    ∃ zs, IsChain zs (t :: ts) ∧ Lexes (render (t :: ts)).toList zs := by
  -- a combinator is taken together with the token behind it, hence the induction on the length
  induction hn : ts.length using Nat.strong_induction_on generalizing t ts with
  | _ n ih =>
    have ht := hp t List.mem_cons_self
    have hc : t.isCombinator = false := hw.first t rfl
    have hts : ∀ u ∈ ts, IsPlain u := fun u hu => hp u (List.mem_cons_of_mem _ hu)
    obtain ⟨zs, hz, hl⟩ := lexes_simple ht hc
    have ho := opens_render hts
    rw [render, String.toList_append]
    obtain rfl | ⟨u, us, rfl, hu⟩ | ⟨content, u, us, rfl, hu⟩ := wellPlaced_cases hw
    · have h := hl ho .nil
      rw [List.append_nil] at h
      exact ⟨zs, .last (.one hz), h⟩
    · have hlt : us.length < n := by
        rw [← hn, List.length_cons]
        exact Nat.lt_succ_self _
      obtain ⟨ys, hy, hs⟩ := ih us.length hlt hu hts rfl
      exact ⟨zs ++ ys, .cons hz hy, hl ho hs⟩
    · have hus : ∀ v ∈ u :: us, IsPlain v := fun v hv => hts v (List.mem_cons_of_mem _ hv)
      have hlt : us.length < n := by
        rw [← hn, List.length_cons, List.length_cons]
        omega
      obtain ⟨ys, hy, hs⟩ := ih us.length hlt hu hus rfl
      cases hts _ List.mem_cons_self with
      | combinator h =>
        obtain ⟨ks, hk, hkl⟩ := lexes_combinator h
        have hg := (opens_token (hus u List.mem_cons_self) (hu.first u rfl)).append
          (render us).toList
        rw [← String.toList_append, ← render] at hg
        refine ⟨zs ++ (ks ++ ys), .join (.one hz) hk hy, hl ho ?_⟩
        rw [render, String.toList_append]
        exact hkl hg.not_gap hs

theorem derives_render {ts : List Token} (hw : WellPlaced ts) (hp : ∀ t ∈ ts, IsPlain t) :
    ∃ zs, Derives zs ts ∧ Lexes (render ts).toList zs := by
  cases ts with
  | nil => exact ⟨[], .blank blanks_nil, .nil⟩
  | cons t ts =>
    obtain ⟨zs, hz, hl⟩ := lexes_render hw hp
    have hd := Derives.chain blanks_nil hz blanks_nil
    rw [List.nil_append, List.append_nil] at hd
    exact ⟨zs, hd, hl⟩

theorem parse_render {ts : List Token} (hw : WellPlaced ts) (hp : ∀ t ∈ ts, IsPlain t) :
    parse (render ts) = .ok ts := by
  obtain ⟨zs, hd, hl⟩ := derives_render hw hp
  obtain ⟨xs, hx, rfl⟩ := hl.complete 0
  refine parse_eq_ok.mpr ⟨xs, ?_, readTokens_eq_ok.mpr hd⟩
  rw [lex_eq (null_not_mem_render hp), hx]

/-- On well-placed plain tokens the tokenizer undoes the rendering. -/
theorem tokenize_undoes_render {ts : List Token} (hw : WellPlaced ts)
    (hp : ∀ t ∈ ts, IsPlain t) : (tokenize (render ts)).value = .ok ts := by
  rw [value_tokenize]
  exact parse_render hw hp

def mixedTokens : List Token :=
  [.className "-é_1", .property "key" none none none, .combinator column,
    .property "key" (some "|=") (some (.text "a \\\"\\ z\\")) (some "S"), .id "0-9",
    .pseudoClass "child" (some (.text "+.5")), .combinator descendant,
    .pseudoClass "parent" none, .pseudoElement "text"]

theorem mixedTokens_read_back :
    WellPlaced mixedTokens ∧ (∀ t ∈ mixedTokens, IsPlain t) ∧
      (tokenize (render mixedTokens)).value = .ok mixedTokens := by
  have hw : WellPlaced mixedTokens := ⟨by decide, by decide, by decide⟩
  have hp : ∀ t ∈ mixedTokens, IsPlain t := by
    intro t ht
    simp only [mixedTokens, List.mem_cons, List.not_mem_nil, or_false] at ht
    obtain rfl | rfl | rfl | rfl | rfl | rfl | rfl | rfl | rfl := ht
    · exact .className (by decide)
    · exact .presence (by decide)
    · exact .combinator (by decide)
    · exact .comparison (by decide) (by decide)
        ⟨by simp [isLineEnd], by decide, by unfold NoHexEscape; decide⟩ (by decide)
    · have hne : "0-9" ≠ "" := by simp
      have hn : "0-9".toList.all isNameChar = true := by decide
      exact .id hne hn
    · exact .call (by decide)
        (.inr (.signed (.inl rfl) (@IsMagnitude.point [] ['5'] rfl rfl (by simp))))
    · exact .combinator (by decide)
    · exact .pseudoClass (by decide)
    · exact .pseudoElement (by decide)
  exact ⟨hw, hp, tokenize_undoes_render hw hp⟩

end SyntaxQuery.Selector
