import SyntaxQuery.Proofs.Selector.RoundTrip
import SyntaxQuery.Proofs.Selector.Tight

namespace SyntaxQuery.Selector

theorem length_unescapeQuoted {cs : List Char} (h : NoHexEscape (dropLineEnds cs)) :
    (unescapeQuoted cs).length ≤ cs.length := by
  rw [unescapeQuoted, unescapeName_of_noHexEscape h]
  exact ((resolveSimple_sublist _).trans (dropLineEnds_sublist cs)).length_le

theorem count_eq_sum (x : Char) (cs : List Char) :
    cs.count x = (cs.map fun c => if c = x then 1 else 0).sum := by
  induction cs with
  | nil => rfl
  | cons c cs ih => simp [List.count_cons, ih, Nat.add_comm]

theorem count_unescapeQuoted {x : Char} (hx : x ≠ '\\' ∧ isLineEnd x = false) {cs : List Char}
    (h : NoHexEscape (dropLineEnds cs)) : (unescapeQuoted cs).count x = cs.count x := by
  have hl : ∀ c, isLineEnd c = true → (if c = x then 1 else 0) = 0 := by
    intro c hc
    refine if_neg ?_
    rintro rfl
    rw [hx.2] at hc
    cases hc
  rw [unescapeQuoted, unescapeName_of_noHexEscape h, count_eq_sum, count_eq_sum,
    sum_resolveSimple (if_neg hx.1.symm), sum_dropLineEnds (if_neg hx.1.symm) hl]

namespace Tight

variable {rest : List Char} {bs : List Body}

theorem operator {s o : List Body} {operator : String} (hs : Blanks s)
    (ho : IsOperator o operator) (h : Tight (operator.toList ++ rest) (s ++ (o ++ bs))) :
    Tight rest bs := by
  cases ho with
  | equal =>
    obtain rfl := unspaced hs (by simp; decide) h
    exact h.delim.2
  | @marked c hc =>
    have hm := (isMark_ne (isMark_of_mem hc).1).1
    rw [String.toList_ofList] at h
    obtain rfl := unspaced hs (by simpa using hm) h
    exact h.delim.2.delim.2

theorem closing {s : List Body} {c : Char} (hs : Blanks s) (hc : isGap c = false)
    (h : Tight (c :: rest) (s ++ .delim c :: bs)) : Tight rest bs := by
  obtain rfl := unspaced hs (by simpa using hc) h
  exact h.delim.2

theorem gap {s : List Body} (hs : Blanks s) (hr : ∀ c ∈ rest.head?, isGap c = false)
    (hb : ∀ b ∈ bs.head?, b ≠ .blank) (h : Tight (' ' :: rest) (s ++ bs)) : Tight rest bs := by
  obtain ⟨bs', e, ht⟩ := h.space hr
  cases s with
  | nil =>
    rw [List.nil_append] at e
    exact (hb .blank (by rw [e]; rfl) rfl).elim
  | cons b s =>
    obtain ⟨rfl, rfl⟩ := List.cons.inj e
    obtain rfl := unspaced (fun b hb => hs b (List.mem_cons_of_mem _ hb)) hr ht
    exact ht

theorem flag {s f : List Body} {flag : Option String} (hs : Blanks s) (hf : IsFlag f flag)
    (h : Tight ((renderFlag flag).toList ++ ']' :: rest) (s ++ (f ++ .delim ']' :: bs))) :
    Tight rest bs := by
  cases hf with
  | absent => exact closing hs (by decide) h
  | @present flag s' hm hs' =>
    have hn := isPlainName_flag hm
    rw [renderFlag_some hm] at h
    have ht := h.gap hs (fun d hd => (isPlainName_head hn d hd).1) (forall_head (by simp))
    exact closing hs' (by decide) (ht.name (endsName_mark (by decide))).2

theorem exists_lineEnd (cs : List Char) : (∀ c ∈ cs, isLineEnd c = false) ∨
    ∃ as d bs, cs = as ++ d :: bs ∧ (∀ c ∈ as, isLineEnd c = false) ∧ isLineEnd d = true := by
  induction cs with
  | nil => exact .inl (by simp)
  | cons c cs ih =>
    cases hc : isLineEnd c with
    | true => exact .inr ⟨[], c, cs, rfl, by simp, hc⟩
    | false =>
      obtain h | ⟨as, d, bs, rfl, h, hd⟩ := ih
      · exact .inl (by simpa [hc] using h)
      · exact .inr ⟨c :: as, d, bs, rfl, by simpa [hc] using h, hd⟩

theorem quoted {v : List Char} (h : Tight ('"' :: (escaped v ++ '"' :: rest)) bs) :
    (∀ c ∈ v, isLineEnd c = false) ∧
      ∃ bs', bs = .string (String.ofList (unescapeQuoted (escaped v))) :: bs' ∧ Tight rest bs' := by
  obtain hl | ⟨as, d, ds, rfl, hl, hd⟩ := exists_lineEnd v
  · obtain ⟨bs', e, ht⟩ := h.next (lexeme_string 0 hl)
    rw [← List.drop_drop, List.drop_left] at ht
    exact ⟨hl, bs', e, ht⟩
  · have hd' : ¬ (d = '\\' ∨ d = '"') := by
      rintro (rfl | rfl) <;> cases hd
    have e : escaped (as ++ d :: ds) ++ '"' :: rest =
        escaped as ++ d :: (escaped ds ++ '"' :: rest) := by
      rw [escaped, List.flatMap_append, ← escaped, ← escaped, escaped_plain hd', List.append_assoc]
      rfl
    rw [e] at h
    obtain ⟨r, hr⟩ := h.lexes.ok
    rw [lexeme_broken 0 hl hd] at hr
    cases hr

theorem bare {s : List Body} {v : Body} {text : String} {core : List Char} (hs : Blanks s)
    (hv : IsValue v text) (hc : isPlainName core = true ∨ IsNumber core)
    (hr : EndsName rest ∧ EndsNumber rest) (h : Tight (core ++ rest) (s ++ v :: bs)) :
    text.toList = core ∧ Tight rest bs := by
  obtain hn | hn := hc
  · obtain rfl := unspaced hs (fun d hd => (isPlainName_head hn d hd).1) h
    cases core with
    | nil => cases hn
    | cons c cs =>
      rw [List.cons_append] at h
      obtain ⟨bs', e, ht⟩ := h.next (lexeme_ident 0 hn hr.1)
      obtain ⟨rfl, rfl⟩ := List.cons.inj e
      cases hv
      exact ⟨String.toList_ofList, by rwa [List.drop_left] at ht⟩
  · obtain ⟨c, cs, rfl⟩ := List.exists_cons_of_ne_nil hn.ne_nil
    have hg := hn.begins.1
    rw [List.cons_append] at h
    obtain rfl := unspaced hs (by simpa using hg) h
    obtain ⟨bs', e, ht⟩ := h.next (lexeme_number 0 hn hr.2)
    obtain ⟨rfl, rfl⟩ := List.cons.inj e
    cases hv
    exact ⟨String.toList_ofList, by rwa [List.drop_left] at ht⟩

theorem value {s : List Body} {v : Body} {text : String} (hs : Blanks s) (hv : IsValue v text)
    (hn : '\x00' ∉ text.toList) (hr : Closes rest)
    (h : Tight ((renderValue (some (.text text))).toList ++ rest) (s ++ v :: bs)) :
    IsQuotable text.toList ∧ Tight rest bs := by
  rw [renderValue_text] at h
  split at h
  · rename_i hb
    obtain ⟨core, hc | hc, hcore⟩ := isBare_cases hb
    · rw [hc] at h
      obtain ⟨-, ht⟩ := bare hs hv hcore ⟨hr.endsName, hr.endsNumber⟩ h
      rw [hc]
      exact ⟨hcore.elim isQuotable_name isQuotable_number, ht⟩
    · -- a line feed behind a bare value is not read as a part of it
      rw [hc, List.append_assoc] at h
      have hl : EndsName ('\n' :: rest) ∧ EndsNumber ('\n' :: rest) :=
        ⟨forall_head (by decide), forall_head (by decide)⟩
      obtain ⟨e, -⟩ := bare hs hv hcore hl h
      simp [hc] at e
  · rw [String.toList_ofList, enquote_eq, List.cons_append, List.append_assoc] at h
    obtain rfl := unspaced hs (by simp; decide) h
    obtain ⟨hl, bs', e, ht⟩ := h.quoted
    obtain ⟨rfl, rfl⟩ := List.cons.inj e
    generalize hq : unescapeQuoted (escaped text.toList) = q at hv
    cases hv
    rw [String.toList_ofList] at hn hq hl ⊢
    have hx := (weigh_unescapeQuoted (escaped q)).2 (by rw [hq, weigh_escaped])
    rw [dropLineEnds_escaped hl] at hx
    exact ⟨⟨hl, hn, (noHexEscape_escaped q).mp hx⟩, ht⟩

theorem argument {s : List Body} {v : Body} {text : String} (hs : Blanks s) (hv : IsValue v text)
    (h : Tight (text.toList ++ ')' :: rest) (s ++ v :: bs)) :
    (isPlainName text.toList = true ∨ IsNumber text.toList) ∧ Tight (')' :: rest) bs := by
  obtain ⟨gap, cs, e, hg, ht⟩ := h.blanks hs
  have hz : gap.count ')' = 0 := count_gap hg (by decide)
  cases hv with
  | ident =>
    obtain ⟨hn, ht⟩ := name_of_gap gap ht e (endsName_mark (by decide)) (forall_head hz)
    exact ⟨.inl hn, ht⟩
  | number =>
    obtain ⟨rest', rfl, hn, ht⟩ := ht.number
    have hp : gap ++ text.toList <+: text.toList ++ ')' :: rest := by
      rw [e, ← List.append_assoc]
      exact List.prefix_append _ _
    have hc : (gap ++ text.toList).count ')' ≤ text.toList.count ')' := by
      rw [List.count_append, hz, Nat.zero_add]
    obtain ⟨rfl, -⟩ := eq_of_prefix hp (Nat.le_refl _) (forall_head hc)
    rw [List.nil_append] at e
    obtain rfl := List.append_cancel_left e
    exact ⟨.inr hn, ht⟩
  | string =>
    obtain ⟨mark, raw, rest', hm, rfl, hu, hx, -⟩ := ht.string
    have hl := length_unescapeQuoted hx
    have hc : raw.count ')' = text.toList.count ')' := by
      rw [hu, count_unescapeQuoted (by decide) hx]
    have hp : gap ++ mark :: (raw ++ [mark]) <+: text.toList ++ ')' :: rest :=
      ⟨rest', by rw [e]; simp⟩
    rw [← hu] at hl
    -- with its quotes a string is longer than what it stands for
    have hlen : text.toList.length ≤ (mark :: (raw ++ [mark])).length := by
      rw [List.length_cons, List.length_append]
      omega
    have hcount : (gap ++ mark :: (raw ++ [mark])).count ')' ≤ text.toList.count ')' := by
      obtain rfl | rfl := hm <;> simp [hz, hc]
    obtain ⟨-, e⟩ := eq_of_prefix hp hlen (forall_head hcount)
    have := congrArg List.length e
    rw [List.length_cons, List.length_append] at this
    omega

theorem hash_name {name : String} (hr : EndsName rest)
    (h : Tight ('#' :: (name.toList ++ rest)) (.hash name :: bs)) :
    name ≠ "" ∧ name.toList.all isNameChar = true ∧ Tight rest bs := by
  obtain ⟨raw, rest', e, hne, hu, ht⟩ := h.hash
  have e := (List.cons.inj e).2
  have hp : [] ++ raw <+: name.toList ++ rest := ⟨rest', e.symm⟩
  obtain ⟨-, rfl⟩ := eq_of_prefix hp hu.length_le fun x hx => by
    rw [List.nil_append, hu.count_eq (hr x hx).2]
  obtain rfl := List.append_cancel_left e
  refine ⟨?_, hu.all_of_self rfl, ht⟩
  rintro rfl
  exact hne rfl

theorem simple {zs : List Body} {t : Token} (hz : IsSimple zs t) (hr : Opens rest)
    (hn : '\x00' ∉ t.render.toList) (h : Tight (t.render.toList ++ rest) (zs ++ bs)) :
    IsPlain t ∧ Tight rest bs := by
  cases hz with
  | className name =>
    rw [Token.render, String.toList_append] at h
    obtain ⟨hn, ht⟩ := h.delim.2.name hr.endsName
    exact ⟨.className hn, ht⟩
  | id name =>
    rw [Token.render, String.toList_append] at h
    obtain ⟨hne, hn, ht⟩ := h.hash_name hr.endsName
    exact ⟨.id hne hn, ht⟩
  | pseudoClass name =>
    rw [Token.render, String.toList_append] at h
    obtain ⟨hn, ht⟩ := h.delim.2.name hr.endsName
    exact ⟨.pseudoClass hn, ht⟩
  | pseudoElement name =>
    rw [Token.render, String.toList_append] at h
    obtain ⟨hn, ht⟩ := h.delim.2.delim.2.name hr.endsName
    exact ⟨.pseudoElement hn, ht⟩
  | @call name s₁ s₂ v text h₁ hv h₂ =>
    have h : Tight (':' :: (name.toList ++ '(' :: (text.toList ++ ')' :: rest)))
        (.delim ':' :: .ident name :: .delim '(' :: (s₁ ++ v :: (s₂ ++ .delim ')' :: bs))) := by
      simpa [Token.render, Scalar.display] using h
    obtain ⟨hn, ht⟩ := h.delim.2.name (endsName_mark (by decide))
    obtain ⟨ha, ht⟩ := ht.delim.2.argument h₁ hv
    exact ⟨.call hn ha, ht.closing h₂ (by decide)⟩
  | @presence name s₁ s₂ h₁ h₂ =>
    have h : Tight ('[' :: (name.toList ++ ']' :: rest))
        (.delim '[' :: (s₁ ++ .ident name :: (s₂ ++ .delim ']' :: bs))) := by
      simpa [Token.render] using h
    obtain ⟨hn, ht⟩ := h.delim.2.spaced_name h₁ (endsName_mark (by decide)) (by simp; decide)
    exact ⟨.presence hn, ht.closing h₂ (by decide)⟩
  | @comparison name s₁ s₂ s₃ s₄ o f operator text v flag h₁ h₂ ho h₃ hv h₄ hf =>
    have h : Tight ('[' :: (name.toList ++ (operator.toList ++
          ((renderValue (some (.text text))).toList ++ ((renderFlag flag).toList ++ ']' :: rest)))))
        (.delim '[' :: (s₁ ++ .ident name ::
          (s₂ ++ (o ++ (s₃ ++ v :: (s₄ ++ (f ++ .delim ']' :: bs))))))) := by
      simpa [Token.render] using h
    have hnull : '\x00' ∉ text.toList := by
      intro hm
      exact hn (by simp [Token.render, mem_renderValue hm])
    obtain ⟨hname, ht⟩ := h.delim.2.spaced_name h₁ (operator_endsName ho.mem)
      fun x hx => (isMark_ne (isMark_operator ho.mem x hx)).1
    obtain ⟨hq, ht⟩ := (ht.operator h₂ ho).value h₃ hv hnull (closes_flag hf.mem _)
    exact ⟨.comparison hname ho.mem hq hf.mem, ht.flag h₄ hf⟩

end Tight

theorem IsCompound.opens {zs : List Body} {ts : List Token} (hz : IsCompound zs ts) :
    OpensSimple (render ts).toList := by
  cases hz with
  | one h | more h _ =>
    rw [render, String.toList_append]
    exact h.opens.append _

theorem IsChain.opens {zs : List Body} {ts : List Token} (hz : IsChain zs ts) :
    OpensSimple (render ts).toList := by
  cases hz with
  | last h => exact h.opens
  | join h _ _ =>
    rw [render_append, String.toList_append]
    exact h.opens.append _

theorem IsChain.not_blank {zs : List Body} {ts : List Token} (hz : IsChain zs ts)
    (bs : List Body) : ∀ b ∈ (zs ++ bs).head?, b ≠ .blank := by
  have hc : ∀ {xs : List Body} {us : List Token}, IsCompound xs us → ∀ bs : List Body,
      ∀ b ∈ (xs ++ bs).head?, b ≠ .blank := by
    intro xs us h bs
    obtain ⟨d, ds, rfl, hd⟩ := h.begins
    exact forall_head hd.1
  cases hz with
  | last h => exact hc h bs
  | join h _ _ =>
    rw [List.append_assoc]
    exact hc h _

namespace Tight

variable {rest : List Char} {bs : List Body}

theorem compound {zs : List Body} {ts : List Token} (hz : IsCompound zs ts) (hr : Opens rest)
    (hn : '\x00' ∉ (render ts).toList) (h : Tight ((render ts).toList ++ rest) (zs ++ bs)) :
    (∀ t ∈ ts, IsPlain t) ∧ Tight rest bs := by
  induction hz generalizing bs with
  | one hz =>
    rw [render, String.toList_append, List.mem_append, not_or] at hn
    rw [render, String.toList_append, List.append_assoc] at h
    obtain ⟨ht, hs⟩ := h.simple hz hr hn.1
    exact ⟨by simpa using ht, hs⟩
  | @more xs ys t ts hz hzs ih =>
    rw [render, String.toList_append, List.mem_append, not_or] at hn
    rw [render, String.toList_append, List.append_assoc, List.append_assoc] at h
    obtain ⟨ht, hs⟩ := h.simple hz (hzs.opens.append _).opens hn.1
    obtain ⟨hts, hs⟩ := ih hn.2 hs
    exact ⟨by simpa [ht] using hts, hs⟩

theorem symbol {s o : List Body} {content : String} (hs : Blanks s) (ho : IsSymbol o content)
    (h : Tight (content.toList ++ rest) (s ++ (o ++ bs))) : Tight rest bs := by
  obtain rfl := unspaced hs ho.head h
  cases ho with
  | child | next | previous => exact h.delim.2
  | column => exact h.delim.2.delim.2

theorem combinator {zs : List Body} {content : String} (hz : IsCombinator zs content)
    (hr : ∀ c ∈ rest.head?, isGap c = false) (hb : ∀ b ∈ bs.head?, b ≠ .blank)
    (h : Tight ((Token.combinator content).render.toList ++ rest) (zs ++ bs)) :
    IsPlain (.combinator content) ∧ Tight rest bs := by
  cases hz with
  | blanks hs hne => exact ⟨.combinator (by decide), h.gap hs hr hb⟩
  | @written s₁ s₂ o _ h₁ ho h₂ =>
    have hne : content ≠ descendant := by cases ho <;> decide
    have hm : content ∈ [descendant, child, nextSibling, previousSibling, column] := by
      cases ho <;> decide
    have h : Tight (' ' :: (content.toList ++ ' ' :: rest)) (s₁ ++ (o ++ (s₂ ++ bs))) := by
      simpa [Token.render, hne] using h
    obtain ⟨c, cs, e, -⟩ := ho.begins
    have ho' : ∀ b ∈ (o ++ (s₂ ++ bs)).head?, b ≠ .blank := by
      rw [e]
      exact forall_head (by simp)
    have ht := h.gap h₁ ho.head ho'
    exact ⟨.combinator hm, (ht.symbol blanks_nil ho).gap h₂ hr hb⟩

theorem chain {zs : List Body} {ts : List Token} (hz : IsChain zs ts)
    (hn : '\x00' ∉ (render ts).toList) (h : Tight (render ts).toList (zs ++ bs)) :
    ∀ t ∈ ts, IsPlain t := by
  induction hz with
  | last hz =>
    rw [← List.append_nil (render _).toList] at h
    exact (h.compound hz (fun _ hc => by cases hc) hn).1
  | @join xs ys zs ts us content hz hc hzs ih =>
    rw [render_append, render, String.toList_append, String.toList_append, List.mem_append,
      List.mem_append, not_or, not_or] at hn
    rw [render_append, render, String.toList_append, String.toList_append, List.append_assoc,
      List.append_assoc] at h
    obtain ⟨hts, h⟩ := h.compound hz (opens_combinator content) hn.1
    obtain ⟨hk, h⟩ := h.combinator hc hzs.opens.not_gap (hzs.not_blank bs)
    have hus := ih hn.2.2 h
    intro t ht
    obtain ht | ht := List.mem_append.mp ht
    · exact hts t ht
    · obtain rfl | ht := List.mem_cons.mp ht
      · exact hk
      · exact hus t ht

end Tight

theorem isPlain_of_parse_render {ts : List Token} (h : parse (render ts) = .ok ts) :
    ∀ t ∈ ts, IsPlain t := by
  obtain ⟨hn, bs, hd, ht⟩ := tight_of_parse_render h
  cases hd with
  | blank hs => simp
  | chain h₁ hc h₂ =>
    obtain rfl := Tight.unspaced h₁ hc.opens.not_gap ht
    exact ht.chain hc hn

/-- Exactly well-placed plain tokens are read back from their text. -/
theorem parse_render_iff {ts : List Token} :
    parse (render ts) = .ok ts ↔ WellPlaced ts ∧ ∀ t ∈ ts, IsPlain t := by
  refine ⟨fun h => ⟨?_, isPlain_of_parse_render h⟩, fun h => parse_render h.1 h.2⟩
  obtain ⟨xs, -, hr⟩ := parse_eq_ok.mp h
  exact (readTokens_eq_ok.mp hr).wellPlaced

/-- The tokens of a selector are read back from their text exactly if they are plain: rendering
restores no escape in a name or an argument, and none but quotes and backslashes in a value. -/
theorem tokenize_render_iff_plain {selector : String} {ts : List Token}
    (h : (tokenize selector).value = .ok ts) :
    (tokenize (render ts)).value = .ok ts ↔ ∀ t ∈ ts, IsPlain t := by
  rw [value_tokenize] at h ⊢
  obtain ⟨xs, -, hr⟩ := parse_eq_ok.mp h
  have hw := (readTokens_eq_ok.mp hr).wellPlaced
  rw [parse_render_iff]
  exact ⟨fun h => h.2, fun hp => ⟨hw, hp⟩⟩

theorem escaped_point_not_read_back :
    (tokenize ".a\\.b").value = .ok [.className "a.b"] ∧
      (tokenize (render [.className "a.b"])).value ≠ .ok [.className "a.b"] := by
  have h : (tokenize ".a\\.b").value = .ok [.className "a.b"] := by
    rw [value_tokenize, parse_eq_ok]
    refine ⟨[⟨.delim '.', 0⟩, ⟨.ident "a.b", 1⟩], rfl, readTokens_eq_ok.mpr ?_⟩
    exact .chain blanks_nil (.last (.one (.className "a.b"))) blanks_nil
  refine ⟨h, fun hr => ?_⟩
  cases (tokenize_render_iff_plain h).mp hr _ List.mem_cons_self with
  | className hn =>
    revert hn
    decide

end SyntaxQuery.Selector
