import SyntaxQuery.Proofs.Selector.Weight

namespace SyntaxQuery.Selector

inductive Unescapes : List Char → List Char → Prop where
  | nil : Unescapes [] []
  | char {c : Char} {cs ds : List Char} (hc : isNameChar c = true) (h : Unescapes cs ds) :
      Unescapes (c :: cs) (c :: ds)
  | escape (c : Char) {cs ds : List Char} (h : Unescapes cs ds) :
      Unescapes ('\\' :: c :: cs) (c :: ds)

theorem Unescapes.length_le {cs ds : List Char} (h : Unescapes cs ds) : ds.length ≤ cs.length := by
  induction h with
  | nil => exact Nat.le_refl _
  | char _ _ ih => exact Nat.succ_le_succ ih
  | escape _ _ ih =>
    simp only [List.length_cons]
    omega

theorem Unescapes.count_eq {cs ds : List Char} (h : Unescapes cs ds) {x : Char} (hx : x ≠ '\\') :
    cs.count x = ds.count x := by
  induction h with
  | nil => rfl
  | char _ _ ih => rw [List.count_cons, List.count_cons, ih]
  | escape c _ ih => rw [List.count_cons_of_ne hx.symm, List.count_cons, List.count_cons, ih]

theorem Unescapes.all_of_self {cs ds : List Char} (h : Unescapes cs ds) (e : cs = ds) :
    ds.all isNameChar = true := by
  induction h with
  | nil => rfl
  | char hc _ ih =>
    rw [List.all_cons, hc, ih (List.cons.inj e).2]
    rfl
  | escape c h _ =>
    have := congrArg List.length e
    have := h.length_le
    simp only [List.length_cons] at *
    omega

theorem unescapeName_of_noHexEscape {cs : List Char} (h : NoHexEscape cs) :
    unescapeName cs = resolveSimple cs := by
  rw [unescapeName, resolveNumeric_eq_self h]

theorem escape_of_length {c : Char} {cs : List Char} (h : escapeLength (c :: cs) ≠ 0) :
    ∃ d ds, c :: cs = '\\' :: d :: ds ∧ (isHex d = true ∨ isLineEnd d = false) := by
  unfold escapeLength at h
  split at h
  · rename_i d ds e
    refine ⟨d, ds, e, ?_⟩
    by_contra hn
    rw [not_or, Bool.not_eq_true, Bool.not_eq_false] at hn
    simp [hn] at h
  · exact (h rfl).elim

theorem nameRun_quoted {d : Char} (hx : isHex d = false) (hl : isLineEnd d = false)
    (ds : List Char) : nameRun 0 ('\\' :: d :: ds) = nameRun 0 ds + 2 := by
  have he : escapeLength ('\\' :: d :: ds) = 2 := by
    rw [escapeLength, hx, hl]
    rfl
  rw [nameRun, if_neg (by decide), he]
  rfl

theorem nameRun_numeric {d : Char} (hx : isHex d = true) (ds : List Char) :
    ∃ n, nameRun 0 ('\\' :: d :: ds) = n + 2 := by
  have hn : numericLength (d :: ds) ≠ 0 := by
    intro h
    have := isHex_of_numericLength h d rfl
    rw [hx] at this
    cases this
  obtain ⟨m, hm⟩ := Nat.exists_eq_succ_of_ne_zero hn
  have he : escapeLength ('\\' :: d :: ds) = m + 2 := by
    rw [escapeLength, if_pos hx, hm]
  exact ⟨nameRun m ds, by rw [nameRun, if_neg (by decide), he]; rfl⟩

theorem nameRun_stops {c : Char} {cs : List Char} (hc : isNameChar c = false)
    (he : escapeLength (c :: cs) = 0) : nameRun 0 (c :: cs) = 0 := by
  rw [nameRun, hc, he]
  rfl

theorem unescapes_nameRun (cs : List Char) (h : NoHexEscape (cs.take (nameRun 0 cs))) :
    Unescapes (cs.take (nameRun 0 cs)) (resolveSimple (cs.take (nameRun 0 cs))) := by
  -- an escape takes two characters at once, hence the induction on the length
  induction hn : cs.length using Nat.strong_induction_on generalizing cs with
  | _ n ih =>
    cases cs with
    | nil => exact .nil
    | cons c cs =>
      cases hc : isNameChar c with
      | true =>
        have hb : c ≠ '\\' := by
          rintro rfl
          cases hc
        have hr : nameRun 0 (c :: cs) = nameRun 0 cs + 1 := by rw [nameRun, if_pos hc]
        have hlt : cs.length < n := by
          rw [← hn, List.length_cons]
          exact Nat.lt_succ_self _
        rw [hr, List.take_succ_cons] at h ⊢
        rw [resolveSimple_cons hb]
        exact .char hc (ih cs.length hlt cs (List.isChain_cons.mp h).2 rfl)
      | false =>
        by_cases he : escapeLength (c :: cs) = 0
        · rw [nameRun_stops hc he]
          exact .nil
        · obtain ⟨d, ds, e, hl⟩ := escape_of_length he
          obtain ⟨rfl, rfl⟩ := List.cons.inj e
          have hx : isHex d = false := by
            cases hx : isHex d with
            | false => rfl
            | true =>
              obtain ⟨m, hm⟩ := nameRun_numeric hx ds
              rw [hm, List.take_succ_cons, List.take_succ_cons] at h
              have := (List.isChain_cons_cons.mp h).1 rfl
              rw [hx] at this
              cases this
          have hl := hl.resolve_left (by simp [hx])
          rw [nameRun_quoted hx hl, List.take_succ_cons, List.take_succ_cons] at h ⊢
          have hd : d ≠ '\n' := by
            rintro rfl
            cases hl
          have hlt : ds.length < n := by
            rw [← hn, List.length_cons, List.length_cons]
            omega
          rw [resolveSimple_escape hd]
          refine .escape d (ih ds.length hlt ds ?_ rfl)
          exact (List.isChain_cons.mp (List.isChain_cons.mp h).2).2

theorem nameRun_start {cs : List Char} (h : nameStartLength cs ≠ 0) :
    nameRun (nameStartLength cs) cs = nameRun 0 cs := by
  cases cs with
  | nil => rfl
  | cons c cs =>
    rw [nameStartLength] at h ⊢
    split
    · rename_i hc
      rw [nameRun, nameRun, if_pos (isNameChar_of_isNameStart hc)]
    · rename_i hs
      rw [if_neg hs] at h
      obtain ⟨d, ds, e, -⟩ := escape_of_length h
      obtain ⟨rfl, rfl⟩ := List.cons.inj e
      rw [nameRun, if_neg (by decide)]
      generalize escapeLength ('\\' :: d :: ds) = n at h ⊢
      cases n with
      | zero => exact (h rfl).elim
      | succ n => rfl

theorem identLength_eq {cs : List Char} (h : identLength cs ≠ 0) :
    identLength cs = nameRun 0 cs := by
  unfold identLength at h ⊢
  dsimp only at h ⊢
  split at h
  · rename_i cs
    have hs : nameStartLength cs ≠ 0 := fun hs => h (if_pos hs)
    rw [if_neg hs, nameRun_start hs, nameRun, if_pos (by decide), Nat.add_comm]
  · have hs : nameStartLength cs ≠ 0 := fun hs => h (if_pos hs)
    rw [if_neg hs, nameRun_start hs]

theorem isPlainName_of_identLength {name rest : List Char} (hn : name.all isNameChar = true)
    (hr : EndsName rest) (hne : name ≠ []) (h : identLength (name ++ rest) ≠ 0) :
    isPlainName name = true := by
  have hs : ∀ {cs : List Char}, cs.all isNameChar = true → nameStartLength (cs ++ rest) ≠ 0 →
      ∃ d ds, cs = d :: ds ∧ isNameStart d = true := by
    intro cs hc h
    cases cs with
    | nil =>
      cases rest with
      | nil => exact (h rfl).elim
      | cons x rest =>
        obtain ⟨hx, hb⟩ := hr x rfl
        exact (h (by simp [nameStartLength, isNameStart_of_not_isNameChar hx,
          escapeLength_of_ne hb])).elim
    | cons d ds =>
      refine ⟨d, ds, rfl, ?_⟩
      by_contra hd
      rw [List.cons_append, nameStartLength, if_neg hd] at h
      obtain ⟨_, _, e, -⟩ := escape_of_length h
      obtain ⟨rfl, -⟩ := List.cons.inj e
      simp at hc
      exact absurd hc.1 (by decide)
  obtain ⟨c, cs, rfl⟩ := List.exists_cons_of_ne_nil hne
  rw [List.all_cons, Bool.and_eq_true] at hn
  refine isPlainName_cons.mpr ?_
  rw [List.cons_append] at h
  unfold identLength at h
  dsimp only at h
  split at h
  · rename_i ds e
    obtain ⟨rfl, rfl⟩ := List.cons.inj e
    obtain ⟨d, ds, rfl, hd⟩ := hs hn.2 fun h0 => h (if_pos h0)
    rw [List.all_cons, Bool.and_eq_true] at hn
    exact .inr ⟨rfl, d, ds, rfl, hd, hn.2.2⟩
  · obtain ⟨d, ds, e, hd⟩ := hs (List.all_cons.trans (by simp [hn])) fun h0 => h (if_pos h0)
    obtain ⟨rfl, rfl⟩ := List.cons.inj e
    exact .inl ⟨hd, hn.2⟩

theorem eq_of_prefix {gap raw text rest : List Char} (hp : gap ++ raw <+: text ++ rest)
    (hl : text.length ≤ raw.length)
    (hc : ∀ x ∈ rest.head?, (gap ++ raw).count x ≤ text.count x) : gap = [] ∧ raw = text := by
  have hle : (gap ++ raw).length ≤ text.length := by
    -- a longer one would hold the whole text and the next character besides
    by_contra hlt
    cases rest with
    | nil =>
      rw [List.append_nil] at hp
      exact hlt hp.length_le
    | cons x rest =>
      have hx : text ++ [x] <+: text ++ x :: rest := ⟨rest, by simp⟩
      have hs : text ++ [x] <+: gap ++ raw := by
        refine List.prefix_of_prefix_length_le hx hp ?_
        rw [List.length_append, List.length_singleton]
        omega
      have hm := hs.sublist.count_le x
      have := hc x rfl
      rw [List.count_append, List.count_singleton_self] at hm
      omega
  rw [List.length_append] at hle
  have hg : gap = [] := List.length_eq_zero_iff.mp (by omega)
  subst hg
  rw [List.nil_append] at hp
  refine ⟨rfl, List.IsPrefix.eq_of_length ?_ (by omega)⟩
  exact List.prefix_of_prefix_length_le hp (List.prefix_append _ _) (by omega)

theorem count_gap {gap : List Char} (hg : ∀ c ∈ gap, isGap c = true) {x : Char}
    (hx : isGap x = false) : gap.count x = 0 := by
  refine List.count_eq_zero.mpr fun hm => ?_
  rw [hg x hm] at hx
  cases hx

namespace Tight

variable {cs : List Char} {bs : List Body}

theorem next {c : Char} {b : Body} {n : Nat} (h : Tight (c :: cs) bs)
    (hb : lexeme 0 c cs = .ok (some b, n)) : ∃ bs', bs = b :: bs' ∧ Tight (cs.drop n) bs' := by
  cases bs with
  | nil =>
    have hl := h.lexes
    cases hl with
    | comment hn => rw [hn 0] at hb; cases hb
  | cons b' bs =>
    obtain ⟨c', cs', n', e, hb', -, hs⟩ := h.cons
    obtain ⟨rfl, rfl⟩ := List.cons.inj e
    rw [hb] at hb'
    cases hb'
    exact ⟨bs, rfl, hs⟩

theorem blanks {s : List Body} (hs : Blanks s) (h : Tight cs (s ++ bs)) :
    ∃ gap rest, cs = gap ++ rest ∧ (∀ c ∈ gap, isGap c = true) ∧ Tight rest bs := by
  induction s generalizing cs with
  | nil => exact ⟨[], cs, rfl, by simp, h⟩
  | cons b s ih =>
    obtain ⟨c, ds, n, rfl, hb, -, ht⟩ := h.cons
    rw [hs b List.mem_cons_self] at hb
    obtain ⟨gap, rest, e, hg, hr⟩ := ih (fun b hb => hs b (List.mem_cons_of_mem _ hb)) ht
    cases lexeme_scans hb with
    | blank hc =>
      have hd : ds = ds.takeWhile isGap ++ (gap ++ rest) := by
        rw [← e]
        exact (List.prefix_iff_eq_append.mp (List.takeWhile_prefix isGap)).symm
      refine ⟨c :: (ds.takeWhile isGap ++ gap), rest, ?_, ?_, hr⟩
      · rw [List.cons_append, List.append_assoc, ← hd]
      · intro d hd
        obtain rfl | hd := List.mem_cons.mp hd
        · exact hc
        · exact (List.mem_append.mp hd).elim List.mem_takeWhile_imp (hg d)

theorem ident {name : String} (h : Tight cs (.ident name :: bs)) :
    ∃ raw rest, cs = raw ++ rest ∧ raw ≠ [] ∧ Unescapes raw name.toList ∧
      identLength cs ≠ 0 ∧ Tight rest bs := by
  obtain ⟨c, ds, n, rfl, hb, hw, ht⟩ := h.cons
  generalize hbody : Body.ident name = body at hb hw
  cases lexeme_scans hb with
  | @ident n hi =>
    cases hbody
    rw [Body.weigh_ident, String.toList_ofList] at hw
    have hx := (weigh_unescapeName _).2 hw.symm
    have hne : identLength (c :: ds) ≠ 0 := by omega
    have hrun := identLength_eq hne
    have hu := unescapes_nameRun (c :: ds)
    rw [← hrun, hi, List.take_succ_cons] at hu
    refine ⟨c :: ds.take n, ds.drop n, by simp, by simp, ?_, hne, ht⟩
    rw [String.toList_ofList, unescapeName_of_noHexEscape hx]
    exact hu hx
  | _ => cases hbody

theorem hash {name : String} (h : Tight cs (.hash name :: bs)) :
    ∃ raw rest, cs = '#' :: (raw ++ rest) ∧ raw ≠ [] ∧ Unescapes raw name.toList ∧
      Tight rest bs := by
  obtain ⟨c, ds, n, rfl, hb, hw, ht⟩ := h.cons
  generalize hbody : Body.hash name = body at hb hw
  cases lexeme_scans hb with
  | hash hc hr hn =>
    cases hbody
    subst hc
    rw [Body.weigh_hash, String.toList_ofList, weigh_cons] at hw
    have hx := (weigh_unescapeName _).2 (Nat.add_left_cancel hw).symm
    have hu := unescapes_nameRun ds
    rw [hr] at hu
    refine ⟨ds.take n, ds.drop n, by simp, ?_, ?_, ht⟩
    · rw [ne_eq, List.take_eq_nil_iff, not_or]
      refine ⟨hn, ?_⟩
      rintro rfl
      exact hn hr.symm
    · rw [String.toList_ofList, unescapeName_of_noHexEscape hx]
      exact hu hx
  | _ => cases hbody

theorem number {text : String} (h : Tight cs (.number text :: bs)) :
    ∃ rest, cs = text.toList ++ rest ∧ IsNumber text.toList ∧ Tight rest bs := by
  obtain ⟨c, ds, n, rfl, hb, hw, ht⟩ := h.cons
  generalize hbody : Body.number text = body at hb hw
  cases lexeme_scans hb with
  | number hi =>
    cases hbody
    have hne : numberLength (c :: ds) ≠ 0 := by omega
    have hm := isNumber_take hne
    rw [hi, List.take_succ_cons] at hm
    rw [String.toList_ofList]
    exact ⟨ds.drop n, by simp, hm, ht⟩
  | _ => cases hbody

theorem string {text : String} (h : Tight cs (.string text :: bs)) :
    ∃ mark raw rest, (mark = '"' ∨ mark = '\'') ∧ cs = mark :: (raw ++ mark :: rest) ∧
      text.toList = unescapeQuoted raw ∧ NoHexEscape (dropLineEnds raw) ∧ Tight rest bs := by
  obtain ⟨c, ds, n, rfl, hb, hw, ht⟩ := h.cons
  generalize hbody : Body.string text = body at hb hw
  cases lexeme_scans hb with
  | @string n rest hc hd =>
    cases hbody
    rw [Body.weigh, String.toList_ofList, weigh_cons] at hw
    have hle := weigh_unescapeQuoted (ds.take n)
    have htk := weigh_take_succ n ds
    have hr : ds.drop (n + 1) = rest := by rw [← List.tail_drop, hd, List.tail_cons]
    rw [hr] at ht
    refine ⟨c, ds.take n, rest, hc, ?_, by rw [String.toList_ofList], hle.2 (by omega), ht⟩
    rw [← hd, List.take_append_drop]
  | _ => cases hbody

theorem delim {c d : Char} (h : Tight (c :: cs) (.delim d :: bs)) : d = c ∧ Tight cs bs := by
  obtain ⟨c', ds, n, e, hb, -, ht⟩ := h.cons
  obtain ⟨rfl, rfl⟩ := List.cons.inj e
  generalize hbody : Body.delim d = body at hb
  cases lexeme_scans hb with
  | delim =>
    cases hbody
    exact ⟨rfl, ht⟩
  | _ => cases hbody

theorem space (hr : ∀ c ∈ cs.head?, isGap c = false) (h : Tight (' ' :: cs) bs) :
    ∃ bs', bs = .blank :: bs' ∧ Tight cs bs' :=
  h.next (lexeme_space 0 hr)

theorem unspaced {s : List Body} (hs : Blanks s) (hc : ∀ c ∈ cs.head?, isGap c = false)
    (h : Tight cs (s ++ bs)) : s = [] := by
  cases s with
  | nil => rfl
  | cons b s =>
    obtain ⟨c, ds, n, rfl, hb, -, -⟩ := h.cons
    rw [hs b List.mem_cons_self] at hb
    cases lexeme_scans hb with
    | blank hg =>
      rw [hc c rfl] at hg
      cases hg

theorem name_of_gap {name : String} {text rest : List Char} (gap : List Char)
    (h : Tight text (.ident name :: bs)) (e : name.toList ++ rest = gap ++ text) (hr : EndsName rest)
    (hg : ∀ x ∈ rest.head?, gap.count x = 0) :
    isPlainName name.toList = true ∧ Tight rest bs := by
  obtain ⟨raw, rest', rfl, hne, hu, hi, ht⟩ := h.ident
  have hp : gap ++ raw <+: name.toList ++ rest := ⟨rest', by rw [e, List.append_assoc]⟩
  obtain ⟨rfl, rfl⟩ := eq_of_prefix hp hu.length_le fun x hx => by
    rw [List.count_append, hg x hx, hu.count_eq (hr x hx).2, Nat.zero_add]
  rw [List.nil_append] at e
  obtain rfl := List.append_cancel_left e
  exact ⟨isPlainName_of_identLength (hu.all_of_self rfl) hr hne hi, ht⟩

theorem name {name : String} {rest : List Char} (hr : EndsName rest)
    (h : Tight (name.toList ++ rest) (.ident name :: bs)) :
    isPlainName name.toList = true ∧ Tight rest bs :=
  name_of_gap [] h rfl hr fun _ _ => rfl

theorem spaced_name {name : String} {rest : List Char} {s : List Body} (hs : Blanks s)
    (hr : EndsName rest) (hg : ∀ x ∈ rest.head?, isGap x = false)
    (h : Tight (name.toList ++ rest) (s ++ .ident name :: bs)) :
    isPlainName name.toList = true ∧ Tight rest bs := by
  obtain ⟨gap, text, e, hgap, ht⟩ := h.blanks hs
  exact name_of_gap gap ht e hr fun x hx => count_gap hgap (hg x hx)

end Tight

end SyntaxQuery.Selector
