import SyntaxQuery.Proofs.Selector.Soundness

namespace SyntaxQuery.Selector

theorem ok_bind {ε α β : Type} (a : α) (f : α → Except ε β) : (Except.ok a >>= f) = f a := rfl

theorem skipBlanks_complete {s bs : List Body} (hs : Blanks s) (hb : bs.head? ≠ some .blank)
    {xs : List Lexeme} (h : bodies xs = s ++ bs) : bodies (skipBlanks xs) = bs := by
  induction s generalizing xs with
  | nil =>
    rw [List.nil_append] at h
    cases xs with
    | nil => exact h
    | cons x xs =>
      rw [← h, bodies_cons, List.head?_cons] at hb
      have hx : ¬ x.isBlank = true := fun hx => hb (congrArg some (Lexeme.isBlank_iff.mp hx))
      rw [skipBlanks, List.dropWhile_cons_of_neg hx, h]
  | cons b s ih =>
    obtain ⟨x, ys, rfl, hx, hy⟩ := bodies_eq_cons h
    rw [hs b List.mem_cons_self] at hx
    rw [skipBlanks, List.dropWhile_cons_of_pos (Lexeme.isBlank_iff.mpr hx)]
    exact ih (fun b hb => hs b (List.mem_cons_of_mem _ hb)) hy

theorem readName_complete {xs : List Lexeme} {name : String} {bs : List Body}
    (h : bodies xs = .ident name :: bs) (what : Expectation) :
    ∃ ys, bodies ys = bs ∧ readName what xs = .ok (name, ys) := by
  obtain ⟨x, ys, rfl, hx, hy⟩ := bodies_eq_cons h
  exact ⟨ys, hy, by simp only [readName, hx]⟩

theorem readValue_complete {xs : List Lexeme} {v : Body} {text : String} (hv : IsValue v text)
    {bs : List Body} (h : bodies xs = v :: bs) (what : Expectation) :
    ∃ ys, bodies ys = bs ∧ readValue what xs = .ok (text, ys) := by
  obtain ⟨x, ys, rfl, rfl, hy⟩ := bodies_eq_cons h
  have hx : x.value? = some text := by
    rw [Lexeme.value?]
    cases hb : x.body <;> rw [hb] at hv <;> cases hv <;> rfl
  exact ⟨ys, hy, by simp only [readValue, hx]⟩

theorem readDelim_complete {xs : List Lexeme} {c : Char} {bs : List Body}
    (h : bodies xs = .delim c :: bs) (what : Expectation) :
    ∃ ys, bodies ys = bs ∧ readDelim what c xs = .ok ((), ys) := by
  obtain ⟨x, ys, rfl, hx, hy⟩ := bodies_eq_cons h
  exact ⟨ys, hy, by simp only [readDelim, Lexeme.isDelim, hx, decide_true, if_true]⟩

theorem readOperator_complete {xs : List Lexeme} {o bs : List Body} {operator : String}
    (ho : IsOperator o operator) (h : bodies xs = o ++ bs) :
    ∃ ys, bodies ys = bs ∧ readOperator xs = .ok (operator, ys) := by
  cases ho with
  | equal =>
    obtain ⟨x, ys, rfl, hx, hy⟩ := bodies_eq_cons h
    exact ⟨ys, hy, by simp only [readOperator, Lexeme.isDelim, hx, decide_true, if_true]⟩
  | marked hc =>
    obtain ⟨x, ys, rfl, hx, h⟩ := bodies_eq_cons h
    obtain ⟨y, zs, rfl, hy, hz⟩ := bodies_eq_cons h
    refine ⟨zs, hz, ?_⟩
    simp only [List.mem_cons, List.not_mem_nil, or_false] at hc
    obtain rfl | rfl | rfl | rfl | rfl := hc <;>
      simp [readOperator, Lexeme.isDelim, hx, hy, operators]

theorem readFlag_complete {xs : List Lexeme} {f bs : List Body} {flag : Option String}
    (hf : IsFlag f flag) (h : bodies xs = f ++ .delim ']' :: bs) :
    ∃ ys, bodies (skipBlanks ys) = .delim ']' :: bs ∧ readFlag xs = .ok (flag, ys) := by
  have hb : (.delim ']' :: bs : List Body).head? ≠ some .blank := by simp
  cases hf with
  | absent =>
    refine ⟨xs, skipBlanks_complete blanks_nil hb h, ?_⟩
    obtain ⟨x, ys, rfl, hx, hy⟩ := bodies_eq_cons h
    simp only [readFlag, hx]
  | present hf hs =>
    obtain ⟨x, ys, rfl, hx, hy⟩ := bodies_eq_cons h
    refine ⟨ys, skipBlanks_complete hs hb hy, ?_⟩
    simp only [readFlag, hx, List.contains_iff_mem.mpr hf, if_true]

theorem readComparison_complete {xs : List Lexeme} {s₃ s₄ o f bs : List Body}
    {operator text : String} {v : Body} {flag : Option String} (ho : IsOperator o operator)
    (h₃ : Blanks s₃) (hv : IsValue v text) (h₄ : Blanks s₄) (hf : IsFlag f flag)
    (h : bodies xs = o ++ (s₃ ++ v :: (s₄ ++ (f ++ .delim ']' :: bs)))) (name : String) :
    ∃ ys, bodies ys = bs ∧
      readComparison name xs = .ok (.property name (some operator) (some (.text text)) flag, ys) := by
  obtain ⟨as, ea, ha⟩ := readOperator_complete ho h
  have ea := skipBlanks_complete h₃ (hv.ne_blank _) ea
  obtain ⟨cs, ec, hc⟩ := readValue_complete hv ea .attributeValue
  have ec := skipBlanks_complete h₄ (hf.ne_blank _) ec
  obtain ⟨ds, ed, hd⟩ := readFlag_complete hf ec
  obtain ⟨ys, ey, hy⟩ := readDelim_complete ed .closingBracket
  refine ⟨ys, ey, ?_⟩
  simp only [readComparison, ha, hc, hd, hy, ok_bind]
  rfl

theorem readAttribute_presence {xs : List Lexeme} {s₁ s₂ bs : List Body} {name : String}
    (h₁ : Blanks s₁) (h₂ : Blanks s₂)
    (h : bodies xs = s₁ ++ .ident name :: (s₂ ++ .delim ']' :: bs)) :
    ∃ ys, bodies ys = bs ∧ readAttribute xs = .ok (.property name none none none, ys) := by
  have h := skipBlanks_complete h₁ (by simp) h
  obtain ⟨as, ea, ha⟩ := readName_complete h .attributeName
  have ea := skipBlanks_complete h₂ (by simp) ea
  obtain ⟨y, ys, e, hy, ey⟩ := bodies_eq_cons ea
  refine ⟨ys, ey, ?_⟩
  simp only [readAttribute, ha, ok_bind, e, Lexeme.isDelim_iff.mpr hy, if_true]
  rfl

theorem readAttribute_comparison {xs : List Lexeme} {s₁ s₂ o bs : List Body}
    {name operator : String} (h₁ : Blanks s₁) (h₂ : Blanks s₂) (ho : IsOperator o operator)
    (h : bodies xs = s₁ ++ .ident name :: (s₂ ++ (o ++ bs))) :
    ∃ ys, bodies ys = o ++ bs ∧ readAttribute xs = readComparison name ys := by
  have h := skipBlanks_complete h₁ (by simp) h
  obtain ⟨as, ea, ha⟩ := readName_complete h .attributeName
  have ea := skipBlanks_complete h₂ (ho.ne_blank bs) ea
  refine ⟨_, ea, ?_⟩
  simp only [readAttribute, ha, ok_bind]
  obtain ⟨c, hc, e⟩ := ho.ne_bracket bs
  rw [← ea] at e
  generalize skipBlanks as = zs at e
  cases zs with
  | nil => rfl
  | cons z zs =>
    have hz : ¬ z.isDelim ']' = true := by
      rw [Lexeme.isDelim_iff]
      simp_all
    simp only [hz]
    rfl

theorem readArgument_complete {xs : List Lexeme} {s₁ s₂ bs : List Body} {v : Body}
    {text : String} (h₁ : Blanks s₁) (hv : IsValue v text) (h₂ : Blanks s₂)
    (h : bodies xs = s₁ ++ v :: (s₂ ++ .delim ')' :: bs)) (name : String) :
    ∃ ys, bodies ys = bs ∧
      readArgument name xs = .ok (.pseudoClass name (some (.text text)), ys) := by
  have h := skipBlanks_complete h₁ (hv.ne_blank _) h
  obtain ⟨as, ea, ha⟩ := readValue_complete hv h (.argument name)
  have ea := skipBlanks_complete h₂ (by simp) ea
  obtain ⟨ys, ey, hy⟩ := readDelim_complete ea .closingParenthesis
  refine ⟨ys, ey, ?_⟩
  simp only [readArgument, ha, hy, ok_bind]
  rfl

theorem readPseudo_eq {xs : List Lexeme} {name : String} {bs : List Body}
    (h : bodies xs = .ident name :: bs) : readPseudo xs = readPseudoClass xs := by
  obtain ⟨x, ys, rfl, hx, -⟩ := bodies_eq_cons h
  have hd : ¬ x.isDelim ':' = true := by
    rw [Lexeme.isDelim_iff, hx]
    simp
  rw [readPseudo, if_neg hd]

theorem readPseudo_plain {xs : List Lexeme} {name : String} {bs : List Body}
    (h : bodies xs = .ident name :: bs) (hb : bs.head? ≠ some (.delim '(')) :
    ∃ ys, bodies ys = bs ∧ readPseudo xs = .ok (.pseudoClass name none, ys) := by
  obtain ⟨ys, ey, hy⟩ := readName_complete h .pseudoClassName
  refine ⟨ys, ey, ?_⟩
  rw [readPseudo_eq h, readPseudoClass, hy, ok_bind]
  cases ys with
  | nil => rfl
  | cons y ys =>
    have hd : ¬ y.isDelim '(' = true := by
      rw [Lexeme.isDelim_iff]
      rintro hd
      rw [← ey, bodies_cons, hd] at hb
      exact hb rfl
    simp only [hd]
    rfl

theorem readPseudo_call {xs : List Lexeme} {name : String} {bs : List Body}
    (h : bodies xs = .ident name :: .delim '(' :: bs) :
    ∃ ys, bodies ys = bs ∧ readPseudo xs = readArgument name ys := by
  obtain ⟨ys, ey, hy⟩ := readName_complete h .pseudoClassName
  obtain ⟨y, zs, rfl, hd, ez⟩ := bodies_eq_cons ey
  refine ⟨zs, ez, ?_⟩
  rw [readPseudo_eq h, readPseudoClass, hy, ok_bind]
  simp only [Lexeme.isDelim_iff.mpr hd, if_true]

theorem readPseudo_element {xs : List Lexeme} {name : String} {bs : List Body}
    (h : bodies xs = .delim ':' :: .ident name :: bs) :
    ∃ ys, bodies ys = bs ∧ readPseudo xs = .ok (.pseudoElement name, ys) := by
  obtain ⟨x, as, rfl, hx, h⟩ := bodies_eq_cons h
  obtain ⟨ys, ey, hy⟩ := readName_complete h .pseudoElementName
  refine ⟨ys, ey, ?_⟩
  rw [readPseudo, if_pos (Lexeme.isDelim_iff.mpr hx), hy, ok_bind]
  rfl

theorem Begins.combinator? {x : Lexeme} (h : Begins x.body) (xs : List Lexeme) :
    combinator? x xs = none := by
  unfold Selector.combinator?
  split
  · rename_i hx
    exact (h.2 _ hx (by decide)).elim
  · rename_i hx
    exact (h.2 _ hx (by decide)).elim
  · rename_i hx
    exact (h.2 _ hx (by decide)).elim
  · rename_i hx
    exact (h.2 _ hx (by decide)).elim
  · rfl

theorem readSimple_complete {zs bs : List Body} {t : Token} (h : IsSimple zs t)
    (hb : bs.head? ≠ some (.delim '(')) {x : Lexeme} {xs : List Lexeme}
    (e : bodies (x :: xs) = zs ++ bs) :
    ∃ ys, bodies ys = bs ∧ readSimple x xs = .ok (t, ys) := by
  rw [bodies_cons] at e
  cases h with
  | className name =>
    obtain ⟨hx, e⟩ := List.cons.inj e
    obtain ⟨ys, ey, hy⟩ := readName_complete e .className
    exact ⟨ys, ey, by simp only [readSimple, hx, hy, ok_bind]; rfl⟩
  | id name =>
    obtain ⟨hx, e⟩ := List.cons.inj e
    exact ⟨xs, e, by simp only [readSimple, hx]⟩
  | pseudoClass name =>
    obtain ⟨hx, e⟩ := List.cons.inj e
    obtain ⟨ys, ey, hy⟩ := readPseudo_plain e hb
    exact ⟨ys, ey, by simp only [readSimple, hx, hy]⟩
  | pseudoElement name =>
    obtain ⟨hx, e⟩ := List.cons.inj e
    obtain ⟨ys, ey, hy⟩ := readPseudo_element e
    exact ⟨ys, ey, by simp only [readSimple, hx, hy]⟩
  | call name h₁ hv h₂ =>
    obtain ⟨hx, e⟩ := List.cons.inj e
    obtain ⟨as, ea, ha⟩ := readPseudo_call e
    obtain ⟨ys, ey, hy⟩ := readArgument_complete h₁ hv h₂ (by simpa using ea) name
    exact ⟨ys, ey, by simp only [readSimple, hx, ha, hy]⟩
  | presence name h₁ h₂ =>
    obtain ⟨hx, e⟩ := List.cons.inj e
    obtain ⟨ys, ey, hy⟩ := readAttribute_presence h₁ h₂ (by simpa using e)
    exact ⟨ys, ey, by simp only [readSimple, hx, hy]⟩
  | comparison name h₁ h₂ ho h₃ hv h₄ hf =>
    obtain ⟨hx, e⟩ := List.cons.inj e
    obtain ⟨as, ea, ha⟩ := readAttribute_comparison h₁ h₂ ho (by simpa using e)
    obtain ⟨ys, ey, hy⟩ := readComparison_complete ho h₃ hv h₄ hf ea name
    exact ⟨ys, ey, by simp only [readSimple, hx, ha, hy]⟩

def Place.lead : Place → List Token
  | afterSimple true => [.combinator descendant]
  | _ => []

theorem Place.join_eq (place : Place) (t : Token) : place.join t = place.lead ++ [t] := by
  cases place with
  | start => rfl
  | afterCombinator => rfl
  | afterSimple blanks => cases blanks <;> rfl

def Accepts (place : Place) (bs : List Body) (ts : List Token) : Prop :=
  ∀ xs, bodies xs = bs → readTokens place xs = .ok ts

theorem accepts_nil {place : Place} (h : place ≠ .afterCombinator) : Accepts place [] [] := by
  intro xs e
  obtain rfl := List.map_eq_nil_iff.mp e
  rw [readTokens, if_neg h]

theorem Accepts.blanks {s bs : List Body} (hs : Blanks s) {ts : List Token} (place : Place)
    (h : Accepts place.afterBlank bs ts) (hb : s = [] → Accepts place bs ts) :
    Accepts place (s ++ bs) ts := by
  induction s generalizing place with
  | nil => exact hb rfl
  | cons b s ih =>
    intro xs e
    obtain ⟨x, xs, rfl, hx, e⟩ := bodies_eq_cons e
    rw [hs b List.mem_cons_self] at hx
    rw [readTokens_blank (Lexeme.isBlank_iff.mpr hx)]
    refine ih (fun b hb => hs b (List.mem_cons_of_mem _ hb)) _ ?_ (fun _ => h) xs e
    cases place <;> exact h

theorem Accepts.simple {zs bs : List Body} {t : Token} {ts : List Token} (hz : IsSimple zs t)
    (hb : bs.head? ≠ some (.delim '(')) (h : Accepts (.afterSimple false) bs ts) (place : Place) :
    Accepts place (zs ++ bs) (place.lead ++ t :: ts) := by
  intro xs e
  obtain ⟨b, zs', rfl, hB⟩ := hz.begins
  obtain ⟨x, xs, rfl, rfl, -⟩ := bodies_eq_cons e
  obtain ⟨ys, ey, hy⟩ := readSimple_complete hz hb e
  have hx : ¬ x.isBlank = true := fun hx => hB.1 (Lexeme.isBlank_iff.mp hx)
  rw [readTokens_simple hx (hB.combinator? xs) hy, h ys ey, place.join_eq]
  simp [Except.map]

theorem Accepts.compound {zs bs : List Body} {us ts : List Token} (hz : IsCompound zs us)
    (hb : bs.head? ≠ some (.delim '(')) (h : Accepts (.afterSimple false) bs ts) (place : Place) :
    Accepts place (zs ++ bs) (place.lead ++ us ++ ts) := by
  induction hz generalizing place with
  | one hz => simpa using Accepts.simple hz hb h place
  | more hz hs ih =>
    obtain ⟨b, us', rfl, hu⟩ := hs.begins
    rw [List.append_assoc]
    simpa [Place.lead] using
      Accepts.simple hz (hu.ne_parenthesis _) (ih (.afterSimple false)) place

theorem combinator?_complete {o bs : List Body} {content : String} (ho : IsSymbol o content)
    {x : Lexeme} {xs : List Lexeme} (e : bodies (x :: xs) = o ++ bs) :
    ∃ ys, bodies ys = bs ∧ combinator? x xs = some (content, ys) := by
  rw [bodies_cons] at e
  cases ho with
  | child | next | previous =>
    obtain ⟨hx, e⟩ := List.cons.inj e
    exact ⟨xs, e, by simp only [combinator?, hx]⟩
  | column =>
    obtain ⟨hx, e⟩ := List.cons.inj e
    obtain ⟨y, ys, rfl, hy, ey⟩ := bodies_eq_cons e
    exact ⟨ys, ey, by simp only [combinator?, hx, Lexeme.isDelim_iff.mpr hy, if_true]⟩

theorem Accepts.symbol {o bs : List Body} {content : String} {ts : List Token}
    (ho : IsSymbol o content) (h : Accepts .afterCombinator bs ts) (blanks : Bool) :
    Accepts (.afterSimple blanks) (o ++ bs) (.combinator content :: ts) := by
  intro xs e
  obtain ⟨c, cs, rfl, -⟩ := ho.begins
  obtain ⟨x, xs, rfl, hx, -⟩ := bodies_eq_cons e
  obtain ⟨ys, ey, hy⟩ := combinator?_complete ho e
  have hb : ¬ x.isBlank = true := by
    rw [Lexeme.isBlank_iff, hx]
    simp
  rw [readTokens_symbol hb hy, h ys ey]
  rfl

theorem Accepts.combinator {zs bs : List Body} {content : String} {ts : List Token}
    (hz : IsCombinator zs content) (h : ∀ place : Place, Accepts place bs (place.lead ++ ts)) :
    Accepts (.afterSimple false) (zs ++ bs) (.combinator content :: ts) := by
  cases hz with
  | blanks hs hne => exact .blanks hs _ (h (.afterSimple true)) fun e => (hne e).elim
  | written h₁ ho h₂ =>
    rw [List.append_assoc, List.append_assoc]
    have hc := Accepts.blanks h₂ .afterCombinator (h .afterCombinator) fun _ => h .afterCombinator
    exact .blanks h₁ _ (.symbol ho hc true) fun _ => .symbol ho hc false

theorem Accepts.chain {zs : List Body} {ts : List Token} (hz : IsChain zs ts) {s : List Body}
    (hs : Blanks s) (place : Place) : Accepts place (zs ++ s) (place.lead ++ ts) := by
  have hn : ∀ blanks, Accepts (.afterSimple blanks) [] [] := fun blanks => accepts_nil (by simp)
  induction hz generalizing place with
  | last hc =>
    have he := Accepts.blanks hs (.afterSimple false) (hn true) fun _ => hn false
    rw [List.append_nil] at he
    simpa using Accepts.compound hc hs.ne_parenthesis he place
  | join hc hk _ ih =>
    rw [List.append_assoc, List.append_assoc, ← List.append_assoc (Place.lead place)]
    exact .compound hc (hk.ne_parenthesis _) (.combinator hk ih) place

theorem accepts_of_derives {bs : List Body} {ts : List Token} (h : Derives bs ts) :
    Accepts .start bs ts := by
  have hn : Accepts .start [] [] := accepts_nil (by simp)
  cases h with
  | blank hs =>
    have he := Accepts.blanks hs .start hn fun _ => hn
    rwa [List.append_nil] at he
  | chain h₁ hc h₂ =>
    have he := Accepts.chain hc h₂ .start
    exact .blanks h₁ .start he fun _ => he

/-- The reader accepts exactly the lexemes that the grammar derives, with the same tokens. -/
theorem readTokens_eq_ok {xs : List Lexeme} {ts : List Token} :
    readTokens .start xs = .ok ts ↔ Derives (bodies xs) ts :=
  ⟨readTokens_sound, fun h => accepts_of_derives h xs rfl⟩

theorem parse_eq_ok {selector : String} {ts : List Token} :
    parse selector = .ok ts ↔
      ∃ xs, lex selector.toList = .ok xs ∧ readTokens .start xs = .ok ts := by
  rw [parse]
  cases lex selector.toList with
  | error fault => simp
  | ok xs => cases hr : readTokens .start xs <;> simp [hr, Except.mapError]

theorem value_tokenize (selector : String) : (tokenize selector).value = parse selector := by
  rw [tokenize]
  cases parse selector <;> rfl

/-- Lexemes are read as tokens exactly where the grammar derives them, and then as the tokens of
the derivation; all others are refused. Combinators in the result stand between simple selectors.
A text whose lexemes they are is tokenized in the same way. -/
theorem reader_accepts_grammar (xs : List Lexeme) :
    (∀ ts, readTokens .start xs = .ok ts ↔ Derives (bodies xs) ts) ∧
      ((∃ fault, readTokens .start xs = .error fault) ↔ ∀ ts, ¬ Derives (bodies xs) ts) ∧
      (∀ ts, readTokens .start xs = .ok ts → WellPlaced ts) ∧
      ∀ selector ts, lex selector.toList = .ok xs →
        ((tokenize selector).value = .ok ts ↔ Derives (bodies xs) ts) := by
  refine ⟨fun ts => readTokens_eq_ok, ⟨?_, fun h => ?_⟩, fun ts h => ?_, fun selector ts hx => ?_⟩
  · rintro ⟨fault, hf⟩ ts hd
    rw [readTokens_eq_ok.mpr hd] at hf
    cases hf
  · cases hr : readTokens .start xs with
    | error fault => exact ⟨fault, rfl⟩
    | ok ts => exact (h ts (readTokens_eq_ok.mp hr)).elim
  · exact (readTokens_eq_ok.mp h).wellPlaced
  · rw [value_tokenize, parse_eq_ok, hx]
    constructor
    · rintro ⟨ys, hy, hr⟩
      cases hy
      exact readTokens_eq_ok.mp hr
    · exact fun hd => ⟨xs, rfl, readTokens_eq_ok.mpr hd⟩

end SyntaxQuery.Selector
