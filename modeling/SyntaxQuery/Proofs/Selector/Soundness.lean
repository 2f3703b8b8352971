import SyntaxQuery.Proofs.Selector.Grammar

namespace SyntaxQuery.Selector

theorem skipBlanks_split (xs : List Lexeme) :
    ∃ s, Blanks s ∧ bodies xs = s ++ bodies (skipBlanks xs) := by
  refine ⟨bodies (xs.takeWhile Lexeme.isBlank), fun b hb => ?_, ?_⟩
  · obtain ⟨x, hx, rfl⟩ := List.mem_map.mp hb
    exact Lexeme.isBlank_iff.mp (List.mem_takeWhile_imp hx)
  · rw [← bodies_append, skipBlanks, List.takeWhile_append_dropWhile]

theorem readName_sound {what : Expectation} {xs ys : List Lexeme} {name : String}
    (h : readName what xs = .ok (name, ys)) : bodies xs = .ident name :: bodies ys := by
  unfold readName at h
  grind

theorem isValue_of_value? {x : Lexeme} {text : String} (h : x.value? = some text) :
    IsValue x.body text := by
  unfold Lexeme.value? at h
  grind [IsValue]

theorem readValue_sound {what : Expectation} {xs ys : List Lexeme} {text : String}
    (h : readValue what xs = .ok (text, ys)) :
    ∃ v, IsValue v text ∧ bodies xs = v :: bodies ys := by
  cases xs with
  | nil => cases h
  | cons x xs =>
    rw [readValue] at h
    split at h
    · cases h
      exact ⟨x.body, isValue_of_value? ‹_›, rfl⟩
    · cases h

theorem readDelim_sound {what : Expectation} {c : Char} {xs ys : List Lexeme} {u : Unit}
    (h : readDelim what c xs = .ok (u, ys)) : bodies xs = .delim c :: bodies ys := by
  unfold readDelim at h
  grind [Lexeme.isDelim]

theorem readOperator_sound {xs ys : List Lexeme} {operator : String}
    (h : readOperator xs = .ok (operator, ys)) :
    ∃ o, IsOperator o operator ∧ bodies xs = o ++ bodies ys := by
  cases xs with
  | nil => cases h
  | cons x xs =>
    unfold readOperator at h
    dsimp only at h
    split at h
    · rename_i hx
      cases h
      exact ⟨_, .equal, by simp [Lexeme.isDelim_iff.mp hx]⟩
    · split at h
      · rename_i c y ys' hx
        split at h
        · rename_i hy
          split at h
          · rename_i hc
            cases h
            refine ⟨_, .marked (c := c) ?_, by simp [hx, Lexeme.isDelim_iff.mp hy]⟩
            simpa [operators, String.ext_iff] using hc
          · cases h
        · cases h
      · cases h

theorem readFlag_sound {xs ys : List Lexeme} {flag : Option String}
    (h : readFlag xs = .ok (flag, ys)) :
    ∃ f, IsFlag f flag ∧ bodies xs = f ++ bodies ys := by
  cases xs with
  | nil =>
    cases h
    exact ⟨[], .absent, rfl⟩
  | cons x xs =>
    unfold readFlag at h
    dsimp only at h
    split at h
    · rename_i flag hx
      split at h
      · rename_i hf
        cases h
        exact ⟨_, .present (List.contains_iff_mem.mp hf) blanks_nil, by simp [hx]⟩
      · cases h
    · cases h
      exact ⟨[], .absent, rfl⟩

theorem readComparison_sound {name : String} {xs ys : List Lexeme} {t : Token}
    (h : readComparison name xs = .ok (t, ys)) {s₁ s₂ : List Body} (h₁ : Blanks s₁)
    (h₂ : Blanks s₂) :
    ∃ zs, IsSimple zs t ∧
      .delim '[' :: (s₁ ++ .ident name :: (s₂ ++ bodies xs)) = zs ++ bodies ys := by
  obtain ⟨⟨operator, as⟩, ha, h⟩ := ok_of_bind h
  obtain ⟨⟨text, bs⟩, hb, h⟩ := ok_of_bind h
  obtain ⟨⟨flag, cs⟩, hc, h⟩ := ok_of_bind h
  obtain ⟨⟨_, ds⟩, hd, h⟩ := ok_of_bind h
  cases h
  obtain ⟨o, ho, ea⟩ := readOperator_sound ha
  obtain ⟨s₃, h₃, es₃⟩ := skipBlanks_split as
  obtain ⟨v, hv, eb⟩ := readValue_sound hb
  obtain ⟨s₄, h₄, es₄⟩ := skipBlanks_split bs
  obtain ⟨f, hf, ec⟩ := readFlag_sound hc
  obtain ⟨s₅, h₅, es₅⟩ := skipBlanks_split cs
  have ed := readDelim_sound hd
  obtain ⟨r, g, hr, hg, e⟩ := hf.trail h₄ h₅
  refine ⟨_, .comparison name h₁ h₂ ho h₃ hv hr hg, ?_⟩
  have e' : s₄ ++ (f ++ (s₅ ++ .delim ']' :: bodies ys)) =
      r ++ (g ++ .delim ']' :: bodies ys) := by
    simpa using congrArg (· ++ .delim ']' :: bodies ys) e
  simp only [ea, es₃, eb, es₄, ec, es₅, ed, e', List.cons_append, List.append_assoc,
    List.nil_append]

theorem readAttribute_sound {xs ys : List Lexeme} {t : Token}
    (h : readAttribute xs = .ok (t, ys)) :
    ∃ zs, IsSimple zs t ∧ .delim '[' :: bodies xs = zs ++ bodies ys := by
  obtain ⟨⟨name, as⟩, ha, h⟩ := ok_of_bind h
  obtain ⟨s₁, h₁, es₁⟩ := skipBlanks_split xs
  obtain ⟨s₂, h₂, es₂⟩ := skipBlanks_split as
  have ea := readName_sound ha
  rw [es₁, ea, es₂]
  dsimp only at h
  generalize skipBlanks as = bs at h
  cases bs with
  | nil => exact readComparison_sound h h₁ h₂
  | cons b bs =>
    dsimp only at h
    split at h
    · rename_i hb
      cases h
      refine ⟨_, .presence name h₁ h₂, ?_⟩
      simp [Lexeme.isDelim_iff.mp hb]
    · exact readComparison_sound h h₁ h₂

theorem readArgument_sound {name : String} {xs ys : List Lexeme} {t : Token}
    (h : readArgument name xs = .ok (t, ys)) :
    ∃ zs, IsSimple zs t ∧
      .delim ':' :: .ident name :: .delim '(' :: bodies xs = zs ++ bodies ys := by
  obtain ⟨⟨text, as⟩, ha, h⟩ := ok_of_bind h
  obtain ⟨⟨_, bs⟩, hb, h⟩ := ok_of_bind h
  cases h
  obtain ⟨s₁, h₁, es₁⟩ := skipBlanks_split xs
  obtain ⟨v, hv, ea⟩ := readValue_sound ha
  obtain ⟨s₂, h₂, es₂⟩ := skipBlanks_split as
  have eb := readDelim_sound hb
  refine ⟨_, .call name h₁ hv h₂, ?_⟩
  simp only [es₁, ea, es₂, eb, List.cons_append, List.append_assoc, List.nil_append]

theorem readPseudoClass_sound {xs ys : List Lexeme} {t : Token}
    (h : readPseudoClass xs = .ok (t, ys)) :
    ∃ zs, IsSimple zs t ∧ .delim ':' :: bodies xs = zs ++ bodies ys := by
  obtain ⟨⟨name, as⟩, ha, h⟩ := ok_of_bind h
  rw [readName_sound ha]
  cases as with
  | nil =>
    cases h
    exact ⟨_, .pseudoClass name, rfl⟩
  | cons a as =>
    dsimp only at h
    split at h
    · rename_i hp
      obtain ⟨zs, hz, e⟩ := readArgument_sound h
      refine ⟨zs, hz, ?_⟩
      rw [← e, bodies_cons, Lexeme.isDelim_iff.mp hp]
    · cases h
      exact ⟨_, .pseudoClass name, rfl⟩

theorem readPseudo_sound {xs ys : List Lexeme} {t : Token} (h : readPseudo xs = .ok (t, ys)) :
    ∃ zs, IsSimple zs t ∧ .delim ':' :: bodies xs = zs ++ bodies ys := by
  cases xs with
  | nil => exact readPseudoClass_sound h
  | cons x xs =>
    rw [readPseudo] at h
    split at h
    · rename_i hx
      obtain ⟨⟨name, as⟩, ha, h⟩ := ok_of_bind h
      cases h
      refine ⟨_, .pseudoElement name, ?_⟩
      rw [bodies_cons, Lexeme.isDelim_iff.mp hx, readName_sound ha]
      rfl
    · exact readPseudoClass_sound h

theorem readSimple_sound {x : Lexeme} {xs ys : List Lexeme} {t : Token}
    (h : readSimple x xs = .ok (t, ys)) :
    ∃ zs, IsSimple zs t ∧ bodies (x :: xs) = zs ++ bodies ys := by
  rw [bodies_cons]
  unfold readSimple at h
  split at h
  · rename_i hx
    cases h
    exact ⟨_, .id _, by rw [hx]; rfl⟩
  · rename_i hx
    obtain ⟨⟨name, as⟩, ha, h⟩ := ok_of_bind h
    cases h
    exact ⟨_, .className name, by rw [hx, readName_sound ha]; rfl⟩
  · rename_i hx
    rw [hx]
    exact readAttribute_sound h
  · rename_i hx
    rw [hx]
    exact readPseudo_sound h
  · cases h

theorem combinator?_sound {x : Lexeme} {xs ys : List Lexeme} {content : String}
    (h : combinator? x xs = some (content, ys)) :
    ∃ o, IsSymbol o content ∧ bodies (x :: xs) = o ++ bodies ys := by
  unfold combinator? at h
  split at h
  · cases h
    exact ⟨_, .child, by simp [*]⟩
  · cases h
    exact ⟨_, .next, by simp [*]⟩
  · cases h
    exact ⟨_, .previous, by simp [*]⟩
  · split at h
    · rename_i y ys'
      split at h
      · rename_i hy
        cases h
        exact ⟨_, .column, by simp [Lexeme.isDelim_iff.mp hy, *]⟩
      · cases h
    · cases h
  · cases h

def Reads : Place → List Body → List Token → Prop
  | .start, bs, ts => Derives bs ts
  | .afterCombinator, bs, ts =>
    ∃ s₁ zs s₂, Blanks s₁ ∧ Blanks s₂ ∧ bs = s₁ ++ (zs ++ s₂) ∧ IsChain zs ts
  | .afterSimple blanks, bs, ts =>
    ∀ xs t s, IsSimple xs t → Blanks s → (blanks = true ↔ s ≠ []) →
      ∃ zs s', Blanks s' ∧ s ++ bs = zs ++ s' ∧ IsChain (xs ++ zs) (t :: ts)

theorem reads_nil {place : Place} (h : place ≠ .afterCombinator) : Reads place [] [] := by
  cases place with
  | start => exact .blank blanks_nil
  | afterCombinator => exact (h rfl).elim
  | afterSimple blanks =>
    intro xs t s hx hs _
    exact ⟨[], s, hs, by simp, by simpa using .last (.one hx)⟩

theorem reads_blank {place : Place} {bs : List Body} {ts : List Token}
    (h : Reads place.afterBlank bs ts) : Reads place (.blank :: bs) ts := by
  have hb : Blanks [.blank] := by simp [Blanks]
  cases place with
  | start =>
    cases h with
    | blank hs => exact .blank (hb.append hs)
    | chain h₁ hc h₂ => exact .chain (hb.append h₁) hc h₂
  | afterCombinator =>
    obtain ⟨s₁, zs, s₂, h₁, h₂, rfl, hc⟩ := h
    exact ⟨.blank :: s₁, zs, s₂, hb.append h₁, h₂, rfl, hc⟩
  | afterSimple blanks =>
    intro xs t s hx hs _
    obtain ⟨zs, s', hs', e, hc⟩ := h xs t (s ++ [.blank]) hx (hs.append hb) (by simp)
    exact ⟨zs, s', hs', by simpa using e, hc⟩

theorem reads_symbol {o bs : List Body} {ts : List Token} {content : String}
    (ho : IsSymbol o content) (h : Reads .afterCombinator bs ts) (blanks : Bool) :
    Reads (.afterSimple blanks) (o ++ bs) (.combinator content :: ts) := by
  intro xs t s hx hs _
  obtain ⟨s₁, zs, s₂, h₁, h₂, rfl, hc⟩ := h
  refine ⟨s ++ (o ++ s₁) ++ zs, s₂, h₂, by simp, ?_⟩
  exact .join (.one hx) (.written hs ho h₁) hc

theorem reads_simple {place : Place} {xs bs : List Body} {t : Token} {ts : List Token}
    (hx : IsSimple xs t) (h : Reads (.afterSimple false) bs ts) :
    Reads place (xs ++ bs) (place.join t ++ ts) := by
  obtain ⟨zs, s', hs', rfl, hc⟩ := h xs t [] hx blanks_nil (by simp)
  cases place with
  | start =>
    rw [← List.append_assoc]
    exact .chain blanks_nil hc hs'
  | afterCombinator => exact ⟨[], xs ++ zs, s', blanks_nil, hs', by simp, hc⟩
  | afterSimple blanks =>
    intro ys u s hy hs hne
    cases blanks with
    | false =>
      obtain rfl : s = [] := by simpa using hne
      exact ⟨xs ++ zs, s', hs', by simp, hc.cons hy⟩
    | true =>
      refine ⟨s ++ (xs ++ zs), s', hs', by simp, ?_⟩
      exact .join (.one hy) (.blanks hs (hne.mp rfl)) hc

section

variable {place : Place} {x : Lexeme} {xs ys : List Lexeme} {content : String}

theorem readTokens_blank (hb : x.isBlank = true) (place : Place) (xs : List Lexeme) :
    readTokens place (x :: xs) = readTokens place.afterBlank xs := by
  rw [readTokens, if_pos hb]

theorem readTokens_symbol (hb : ¬ x.isBlank = true) (hc : combinator? x xs = some (content, ys))
    (blanks : Bool) :
    readTokens (.afterSimple blanks) (x :: xs) =
      (readTokens .afterCombinator ys).map (.combinator content :: ·) := by
  rw [readTokens, if_neg hb]
  split
  · rename_i hc'
    rw [hc] at hc'
    cases hc'
    rfl
  · rename_i hc'
    rw [hc] at hc'
    cases hc'

theorem readTokens_misplaced (hb : ¬ x.isBlank = true)
    (hc : combinator? x xs = some (content, ys)) (hp : ∀ blanks, place ≠ .afterSimple blanks) :
    readTokens place (x :: xs) = .error ⟨.misplacedCombinator content, x :: xs⟩ := by
  rw [readTokens, if_neg hb]
  split
  · rename_i hc'
    rw [hc] at hc'
    cases hc'
    cases place with
    | start => rfl
    | afterCombinator => rfl
    | afterSimple blanks => exact (hp blanks rfl).elim
  · rename_i hc'
    rw [hc] at hc'
    cases hc'

theorem readTokens_fault (hb : ¬ x.isBlank = true) (hc : combinator? x xs = none) {fault : Fault}
    (hs : readSimple x xs = .error fault) (place : Place) :
    readTokens place (x :: xs) = .error fault := by
  rw [readTokens, if_neg hb]
  split
  · rename_i hc'
    rw [hc] at hc'
    cases hc'
  · split
    · rename_i hs'
      rw [hs] at hs'
      cases hs'
      rfl
    · rename_i hs'
      rw [hs] at hs'
      cases hs'

theorem readTokens_simple (hb : ¬ x.isBlank = true) (hc : combinator? x xs = none) {t : Token}
    (hs : readSimple x xs = .ok (t, ys)) (place : Place) :
    readTokens place (x :: xs) = (readTokens (.afterSimple false) ys).map (place.join t ++ ·) := by
  rw [readTokens, if_neg hb]
  split
  · rename_i hc'
    rw [hc] at hc'
    cases hc'
  · split
    · rename_i hs'
      rw [hs] at hs'
      cases hs'
    · rename_i hs'
      rw [hs] at hs'
      cases hs'
      rfl

end

theorem ok_of_map {ε α β : Type} {x : Except ε α} {f : α → β} {b : β} (h : x.map f = .ok b) :
    ∃ a, x = .ok a ∧ f a = b := by
  cases x with
  | error e => cases h
  | ok a => exact ⟨a, rfl, Except.ok.inj h⟩

theorem readTokens_sound {place : Place} {xs : List Lexeme} {ts : List Token}
    (h : readTokens place xs = .ok ts) : Reads place (bodies xs) ts := by
  induction place, xs using readTokens.induct generalizing ts with
  | case1 => rw [readTokens] at h; cases h
  | case2 place hp =>
    rw [readTokens, if_neg hp] at h
    cases h
    exact reads_nil hp
  | case3 place x xs hb ih =>
    rw [readTokens_blank hb] at h
    rw [bodies_cons, Lexeme.isBlank_iff.mp hb]
    exact reads_blank (ih h)
  | case4 x xs hb content ys hc _ blanks ih =>
    rw [readTokens_symbol hb hc] at h
    obtain ⟨us, hu, rfl⟩ := ok_of_map h
    obtain ⟨o, ho, e⟩ := combinator?_sound hc
    rw [e]
    exact reads_symbol ho (ih hu) blanks
  | case5 x xs hb content ys hc _ place hp =>
    rw [readTokens_misplaced hb hc hp] at h
    cases h
  | case6 place x xs hb hc fault hs =>
    rw [readTokens_fault hb hc hs] at h
    cases h
  | case7 place x xs hb hc t ys hs _ ih =>
    rw [readTokens_simple hb hc hs] at h
    obtain ⟨us, hu, rfl⟩ := ok_of_map h
    obtain ⟨zs, hz, e⟩ := readSimple_sound hs
    rw [e]
    exact reads_simple hz (ih hu)

end SyntaxQuery.Selector
