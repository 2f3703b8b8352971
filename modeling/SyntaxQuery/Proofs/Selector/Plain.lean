import SyntaxQuery.Proofs.Selector.Numbers
import SyntaxQuery.Proofs.Selector.Quoted

namespace SyntaxQuery.Selector

structure IsQuotable (cs : List Char) : Prop where
  lines : ∀ c ∈ cs, isLineEnd c = false
  null : '\x00' ∉ cs
  escapes : NoHexEscape cs

/-- A token whose text needs no escapes, apart from a value between quotes. -/
inductive IsPlain : Token → Prop where
  | className {name : String} (h : isPlainName name.toList = true) : IsPlain (.className name)
  | id {name : String} (hne : name ≠ "") (h : name.toList.all isNameChar = true) :
      IsPlain (.id name)
  | presence {name : String} (h : isPlainName name.toList = true) :
      IsPlain (.property name none none none)
  | comparison {name operator value : String} {flag : Option String}
      (h : isPlainName name.toList = true) (ho : operator ∈ operators)
      (hv : IsQuotable value.toList) (hf : ∀ f ∈ flag, f ∈ caseFlags) :
      IsPlain (.property name (some operator) (some (.text value)) flag)
  | combinator {content : String}
      (h : content ∈ [descendant, child, nextSibling, previousSibling, column]) :
      IsPlain (.combinator content)
  | pseudoClass {name : String} (h : isPlainName name.toList = true) :
      IsPlain (.pseudoClass name none)
  | call {name argument : String} (h : isPlainName name.toList = true)
      (ha : isPlainName argument.toList = true ∨ IsNumber argument.toList) :
      IsPlain (.pseudoClass name (some (.text argument)))
  | pseudoElement {name : String} (h : isPlainName name.toList = true) :
      IsPlain (.pseudoElement name)

section

variable {rest : List Char}

theorem isPlainName_head {name : List Char} (hn : isPlainName name = true) :
    ∀ d ∈ (name ++ rest).head?, isGap d = false ∧ d.isDigit = false := by
  cases name with
  | nil => cases hn
  | cons c cs =>
    have ha := List.all_eq_true.mp (isPlainName_all hn) c List.mem_cons_self
    refine forall_head ⟨isGap_of_isNameChar ha, ?_⟩
    obtain ⟨hc, -⟩ | ⟨rfl, -⟩ := isPlainName_cons.mp hn
    · cases hd : c.isDigit with
      | false => rfl
      | true =>
        rw [isNameStart_of_isDigit hd] at hc
        cases hc
    · rfl

def Opens (cs : List Char) : Prop :=
  ∀ c ∈ cs.head?, c ∈ [' ', '.', '#', '[', ':']

def OpensSimple (cs : List Char) : Prop :=
  ∃ c ds, cs = c :: ds ∧ c ∈ ['.', '#', '[', ':']

theorem OpensSimple.append {cs : List Char} (h : OpensSimple cs) (rest : List Char) :
    OpensSimple (cs ++ rest) := by
  obtain ⟨c, ds, rfl, hc⟩ := h
  exact ⟨c, ds ++ rest, rfl, hc⟩

theorem OpensSimple.opens {cs : List Char} (h : OpensSimple cs) : Opens cs := by
  obtain ⟨c, ds, rfl, hc⟩ := h
  exact forall_head (List.mem_cons_of_mem _ hc)

theorem OpensSimple.not_gap {cs : List Char} (h : OpensSimple cs) :
    ∀ c ∈ cs.head?, isGap c = false := by
  obtain ⟨c, ds, rfl, hc⟩ := h
  simp only [List.mem_cons, List.not_mem_nil, or_false] at hc
  obtain rfl | rfl | rfl | rfl := hc <;> exact forall_head (by decide)

theorem opens_combinator (content : String) :
    Opens ((Token.combinator content).render.toList ++ rest) := by
  rw [Token.render]
  split
  · exact forall_head (by decide)
  · rw [String.toList_append, String.toList_append]
    exact forall_head (by decide)

theorem Opens.endsName (h : Opens rest) : EndsName rest := by
  intro c hc
  have := h c hc
  simp only [List.mem_cons, List.not_mem_nil, or_false] at this
  obtain rfl | rfl | rfl | rfl | rfl := this <;> decide

def Closes (cs : List Char) : Prop :=
  ∃ c ds, cs = c :: ds ∧ (c = ']' ∨ c = ')' ∨ c = ' ')

theorem Closes.endsName (h : Closes rest) : EndsName rest := by
  obtain ⟨c, ds, rfl, hc⟩ := h
  obtain rfl | rfl | rfl := hc <;> exact forall_head (by decide)

theorem Closes.endsNumber (h : Closes rest) : EndsNumber rest := by
  obtain ⟨c, ds, rfl, hc⟩ := h
  obtain rfl | rfl | rfl := hc <;> exact forall_head (by decide)

end

theorem isOperator_of_mem {operator : String} (ho : operator ∈ operators) :
    operator = "=" ∨ ∃ c ∈ ['~', '|', '^', '$', '*'], operator = String.ofList [c, '='] := by
  simp only [operators, List.mem_cons, List.not_mem_nil, or_false] at ho
  obtain rfl | rfl | rfl | rfl | rfl | rfl := ho
  · exact .inl rfl
  all_goals exact .inr ⟨_, by decide, rfl⟩

theorem isPlainName_flag {flag : String} (h : flag ∈ caseFlags) :
    isPlainName flag.toList = true := by
  simp only [caseFlags, List.mem_cons, List.not_mem_nil, or_false] at h
  obtain rfl | rfl | rfl | rfl := h <;> decide

theorem renderFlag_some {flag : String} (h : flag ∈ caseFlags) :
    (renderFlag (some flag)).toList = ' ' :: flag.toList := by
  have hne : flag ≠ "" := by
    rintro rfl
    revert h
    decide
  rw [renderFlag, if_neg hne, String.toList_append]
  rfl

theorem closes_flag {flag : Option String} (hf : ∀ f ∈ flag, f ∈ caseFlags) (rest : List Char) :
    Closes ((renderFlag flag).toList ++ ']' :: rest) := by
  cases flag with
  | none => exact ⟨']', rest, rfl, .inl rfl⟩
  | some f =>
    rw [renderFlag_some (hf f rfl)]
    exact ⟨' ', _, rfl, .inr (.inr rfl)⟩

theorem isNameStart_of_isBareStart {c : Char} (h : isBareStart c = true) : isNameStart c = true := by
  rw [isBareStart] at h
  rw [isNameStart, h]
  rfl

theorem isNameChar_of_isBareChar {c : Char} (h : isBareChar c = true) : isNameChar c = true := by
  simp only [isBareChar, isBareStart, Bool.or_eq_true] at h
  simp only [isNameChar, isNameStart, Bool.or_eq_true]
  tauto

theorem isPlainName_of_isBareName {cs : List Char} (h : isBareName cs = true) :
    isPlainName cs = true := by
  have hs : ∀ {c : Char} {cs : List Char}, (isBareStart c && cs.all isBareChar) = true →
      isNameStart c = true ∧ cs.all isNameChar = true := by
    intro c cs h
    rw [Bool.and_eq_true, List.all_eq_true] at h
    exact ⟨isNameStart_of_isBareStart h.1,
      List.all_eq_true.mpr fun d hd => isNameChar_of_isBareChar (h.2 d hd)⟩
  unfold isBareName at h
  split at h
  · exact isPlainName_cons.mpr (.inr ⟨rfl, _, _, rfl, hs h⟩)
  · exact isPlainName_cons.mpr (.inl (hs h))
  · cases h

theorem isNumber_of_isBareInteger {cs : List Char} (h : isBareInteger cs = true) :
    IsNumber cs := by
  unfold isBareInteger at h
  split at h
  · rename_i c cs
    split at h
    · rename_i hs
      rw [Bool.and_eq_true, Bool.not_eq_true', List.isEmpty_eq_false_iff] at h
      exact .signed (by simpa using hs) (.whole h.2 h.1)
    · exact .unsigned (.whole h (List.cons_ne_nil _ _))
  · cases h

theorem renderValue_text (text : String) : renderValue (some (.text text)) =
    if isBare text.toList then text else String.ofList (enquote text.toList) := rfl

theorem isBare_cases {v : List Char} (h : isBare v = true) :
    ∃ core, (v = core ∨ v = core ++ ['\n']) ∧ (isPlainName core = true ∨ IsNumber core) := by
  rw [isBare] at h
  refine ⟨if v.getLast? = some '\n' then v.dropLast else v, ?_, ?_⟩
  · split
    · rename_i hl
      exact .inr (List.dropLast_append_getLast? _ hl).symm
    · exact .inl rfl
  · rw [Bool.or_eq_true] at h
    exact h.imp isPlainName_of_isBareName isNumber_of_isBareInteger

theorem null_not_mem_name {cs : List Char} (h : cs.all isNameChar = true) : '\x00' ∉ cs := by
  intro hm
  have := List.all_eq_true.mp h _ hm
  revert this
  decide

theorem null_not_mem_number {cs : List Char} (h : IsNumber cs) : '\x00' ∉ cs := by
  intro hm
  obtain hd | hd := h.mem hm <;> revert hd <;> decide

theorem isQuotable_name {cs : List Char} (h : isPlainName cs = true) : IsQuotable cs := by
  have ha := isPlainName_all h
  refine ⟨fun c hc => ?_, null_not_mem_name ha, noHexEscape_of_not_mem (backslash_not_mem ha)⟩
  have hg := isGap_of_isNameChar (List.all_eq_true.mp ha c hc)
  rw [isGap, Bool.or_eq_false_iff] at hg
  exact hg.2

theorem isQuotable_number {cs : List Char} (h : IsNumber cs) : IsQuotable cs := by
  refine ⟨fun c hc => ?_, null_not_mem_number h, noHexEscape_of_not_mem fun hm => ?_⟩
  · cases hl : isLineEnd c with
    | false => rfl
    | true =>
      simp only [isLineEnd, Bool.or_eq_true, decide_eq_true_eq] at hl
      obtain (rfl | rfl) | rfl := hl <;> obtain hd | hd := h.mem hc <;> revert hd <;> decide
  · obtain hd | hd := h.mem hm <;> revert hd <;> decide

theorem mem_renderValue {c : Char} {text : String} (h : c ∈ text.toList) :
    c ∈ (renderValue (some (.text text))).toList := by
  rw [renderValue_text]
  split
  · exact h
  · rw [String.toList_ofList, enquote_eq]
    simp [mem_escaped_of_mem h]

theorem null_not_mem_value {text : String} (h : IsQuotable text.toList) :
    '\x00' ∉ (renderValue (some (.text text))).toList := by
  rw [renderValue_text]
  split
  · exact h.null
  · rw [String.toList_ofList, enquote_eq]
    have hm : '\x00' ∉ escaped text.toList := fun hm => (mem_escaped hm).elim (by decide) h.null
    simp [hm]

theorem null_not_mem_operator {operator : String} (h : operator ∈ operators) :
    '\x00' ∉ operator.toList := by
  simp only [operators, List.mem_cons, List.not_mem_nil, or_false] at h
  obtain rfl | rfl | rfl | rfl | rfl | rfl := h <;> decide

theorem null_not_mem_flag {flag : Option String} (h : ∀ f ∈ flag, f ∈ caseFlags) :
    '\x00' ∉ (renderFlag flag).toList := by
  cases flag with
  | none => simp [renderFlag]
  | some f =>
    have hm := h f rfl
    simp only [caseFlags, List.mem_cons, List.not_mem_nil, or_false] at hm
    obtain rfl | rfl | rfl | rfl := hm <;> decide

theorem null_not_mem_token {t : Token} (h : IsPlain t) : '\x00' ∉ t.render.toList := by
  cases h with
  | className h | presence h | pseudoClass h | pseudoElement h =>
    simp [Token.render, null_not_mem_name (isPlainName_all h)]
  | id hne h => simp [Token.render, null_not_mem_name h]
  | comparison h ho hv hf =>
    simp [Token.render, null_not_mem_name (isPlainName_all h), null_not_mem_value hv,
      null_not_mem_operator ho, null_not_mem_flag hf]
  | combinator h =>
    simp only [List.mem_cons, List.not_mem_nil, or_false] at h
    obtain rfl | rfl | rfl | rfl | rfl := h <;> decide
  | call h ha =>
    have := ha.elim (fun h => null_not_mem_name (isPlainName_all h)) null_not_mem_number
    simp [Token.render, null_not_mem_name (isPlainName_all h), Scalar.display, this]

theorem null_not_mem_render {ts : List Token} (hp : ∀ t ∈ ts, IsPlain t) :
    '\x00' ∉ (render ts).toList := by
  induction ts with
  | nil => simp [render]
  | cons t ts ih =>
    rw [render, String.toList_append, List.mem_append, not_or]
    exact ⟨null_not_mem_token (hp t List.mem_cons_self),
      ih fun u hu => hp u (List.mem_cons_of_mem _ hu)⟩

end SyntaxQuery.Selector
