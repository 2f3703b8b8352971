import Mathlib.Data.List.DropRight
import SyntaxQuery.Proofs.Selector.Stage

namespace SyntaxQuery.Selector

section

variable {s t : Stage} {xs : List Lexeme}

theorem blames_head {x : Lexeme} (h : s.next x.body = none) (xs : List Lexeme) :
    Blames s (x :: xs) (x :: xs) :=
  .here (.here (.lexeme h))

theorem blames_end (h : s.ends = false) : Blames s [] [] :=
  .here (.here (.ending h))

theorem readName_follows (he : s.ends = false)
    (hs : ∀ x ∈ xs.head?, s.next x.body = Stage.atName t x.body) (what : Expectation) :
    Follows s (fun _ => t) xs (readName what xs) := by
  cases xs with
  | nil => exact blames_end he
  | cons x xs =>
    have hn := hs x rfl
    rw [readName]
    split
    · rename_i name hx
      exact passes_cons (by rw [hn, hx]; rfl)
    · rename_i hx
      refine blames_head (hn.trans ?_) xs
      cases hb : x.body with
      | ident name => exact absurd hb (hx name)
      | _ => rfl

theorem readValue_follows (he : s.ends = false)
    (hs : ∀ x ∈ xs.head?, s.next x.body = Stage.atValue t x.body) (what : Expectation) :
    Follows s (fun _ => t) xs (readValue what xs) := by
  cases xs with
  | nil => exact blames_end he
  | cons x xs =>
    have hn := hs x rfl
    rw [Stage.atValue_eq] at hn
    rw [readValue]
    split
    · rename_i text hx
      exact passes_cons (by rw [hn, hx]; rfl)
    · rename_i hx
      exact blames_head (by rw [hn, hx]; rfl) xs

theorem readDelim_follows {c : Char} (he : s.ends = false)
    (hs : ∀ x ∈ xs.head?, s.next x.body = Stage.atDelim c t x.body) (what : Expectation) :
    Follows s (fun _ => t) xs (readDelim what c xs) := by
  cases xs with
  | nil => exact blames_end he
  | cons x xs =>
    have hn := hs x rfl
    rw [readDelim]
    split
    · rename_i hx
      exact passes_cons (hn.trans (if_pos (Lexeme.isDelim_iff.mp hx)))
    · rename_i hx
      exact blames_head (hn.trans (if_neg fun h => hx (Lexeme.isDelim_iff.mpr h))) xs

end

theorem operators_eq : operators = "=" :: marks.map fun c => String.ofList [c, '='] := by
  decide

theorem contains_operator_iff {c : Char} :
    operators.contains (String.ofList [c, '=']) = true ↔ c ∈ marks := by
  rw [List.contains_iff_mem, operators_eq, List.mem_cons]
  constructor
  · rintro (h | h)
    · have hl := congrArg String.toList h
      rw [String.toList_ofList] at hl
      cases hl
    · obtain ⟨d, hd, he⟩ := List.mem_map.mp h
      cases String.ofList_injective he
      exact hd
  · exact fun h => .inr (List.mem_map_of_mem h)

theorem next_named {b : Body} (h : b ≠ .delim ']') (h' : b ≠ .delim '=') :
    Stage.named.next b = Stage.skipping .named Stage.atMark b := by
  rw [Stage.next, if_neg h, if_neg h']

theorem blames_mark {x : Lexeme} {c : Char} (hx : x.body = .delim c)
    (hn : Stage.named.next x.body = Stage.atMark x.body) {xs : List Lexeme}
    (hs : ∀ y ∈ xs.head?, y.body ≠ .delim '=') : Blames .named (x :: xs) (x :: xs) := by
  rw [hx] at hn
  by_cases hc : c ∈ marks
  · refine .here (.behind hc hx (hn.trans (if_pos hc)) ?_)
    cases xs with
    | nil => exact .ending rfl
    | cons y ys => exact .lexeme (if_neg (hs y rfl))
  · exact blames_head (by rw [hx]; exact hn.trans (if_neg hc)) xs

theorem readOperator_follows {xs : List Lexeme}
    (hb : ∀ x ∈ xs.head?, x.body ≠ .blank ∧ x.body ≠ .delim ']') :
    Follows .named (fun _ => .operator) xs (readOperator xs) := by
  cases xs with
  | nil => exact blames_end rfl
  | cons x xs =>
    obtain ⟨hx, hx'⟩ := hb x rfl
    unfold readOperator
    by_cases hd : x.isDelim '=' = true
    · simp only [if_pos hd]
      exact passes_cons (by rw [Lexeme.isDelim_iff.mp hd]; rfl)
    have hn : Stage.named.next x.body = Stage.atMark x.body := by
      rw [next_named hx' fun h => hd (Lexeme.isDelim_iff.mpr h), Stage.skipping_of_ne hx]
    simp only [if_neg hd]
    cases hc : x.body with
    | blank => exact absurd hc hx
    | delim c =>
      cases xs with
      | nil => exact blames_mark hc hn nofun
      | cons y ys =>
        by_cases hy : y.isDelim '=' = true
        · simp only [if_pos hy, contains_operator_iff]
          rw [hc] at hn
          by_cases hm : c ∈ marks
          · have ht : Stage.named.next x.body = some .mark := by
              rw [hc, hn]
              exact if_pos hm
            rw [if_pos hm]
            exact (passes_cons ht).trans (passes_cons (by rw [Lexeme.isDelim_iff.mp hy]; rfl))
          · rw [if_neg hm]
            exact blames_head (by rw [hc, hn]; exact if_neg hm) _
        · simp only [if_neg hy]
          refine blames_mark hc hn ?_
          rintro _ ⟨⟩ h
          exact hy (Lexeme.isDelim_iff.mpr h)
    | _ => exact blames_head (by rw [hc]; rfl) xs

def Stage.behindFlag : Option String → Stage
  | none => value
  | some _ => flag

theorem readFlag_follows {xs : List Lexeme} : Follows .value .behindFlag xs (readFlag xs) := by
  cases xs with
  | nil => exact .refl _ _
  | cons x xs =>
    rw [readFlag]
    split
    · rename_i name hx
      split
      · rename_i hf
        refine passes_cons ?_
        rw [hx]
        exact if_pos (List.contains_iff_mem.mp hf)
      · rename_i hf
        refine blames_head ?_ xs
        rw [hx]
        exact if_neg fun h => hf (List.contains_iff_mem.mpr h)
    · exact .refl _ _

theorem readFlag_none {xs ys : List Lexeme} (h : readFlag xs = .ok (none, ys)) :
    ys = xs ∧ ∀ x ∈ xs.head?, ∀ name, x.body ≠ .ident name := by
  cases xs with
  | nil =>
    cases h
    exact ⟨rfl, nofun⟩
  | cons x xs =>
    rw [readFlag] at h
    split at h
    · split at h <;> cases h
    · rename_i hx
      cases h
      refine ⟨rfl, ?_⟩
      rintro _ ⟨⟩ name
      exact hx name

theorem skipBlanks_skipBlanks (xs : List Lexeme) : skipBlanks (skipBlanks xs) = skipBlanks xs :=
  List.dropWhile_idempotent _ xs

theorem next_behindFlag {bs cs : List Lexeme} {flag : Option String}
    (h : readFlag (skipBlanks bs) = .ok (flag, cs)) :
    ∀ x ∈ (skipBlanks cs).head?,
      (Stage.behindFlag flag).next x.body = Stage.atDelim ']' .simple x.body := by
  intro x hx
  have hb := head_skipBlanks cs x hx
  cases flag with
  | some name => exact Stage.skipping_of_ne hb _ _
  | none =>
    obtain ⟨rfl, hi⟩ := readFlag_none h
    rw [skipBlanks_skipBlanks] at hx
    refine (Stage.skipping_of_ne hb _ _).trans ?_
    cases hc : x.body with
    | ident name => exact absurd hc (hi x hx name)
    | _ => rfl

theorem readComparison_follows {xs : List Lexeme}
    (hb : ∀ x ∈ xs.head?, x.body ≠ .blank ∧ x.body ≠ .delim ']') (name : String) :
    Follows .named (fun _ => .simple) xs (readComparison name xs) := by
  refine (readOperator_follows hb).bind fun operator as _ => ?_
  have hv : Follows .operator (fun _ => .value) (skipBlanks as)
      (readValue .attributeValue (skipBlanks as)) := by
    refine readValue_follows rfl ?_ _
    exact fun x hx => Stage.skipping_of_ne (head_skipBlanks as x hx) _ _
  refine .passed (passes_blanks rfl as) (hv.bind fun text bs _ => ?_)
  refine .passed (passes_blanks rfl bs) (readFlag_follows.bind fun flag cs hf => ?_)
  have hd : Follows (.behindFlag flag) (fun _ => .simple) (skipBlanks cs)
      (readDelim .closingBracket ']' (skipBlanks cs)) :=
    readDelim_follows (by cases flag <;> rfl) (next_behindFlag hf) _
  exact .passed (passes_blanks (by cases flag <;> rfl) cs) (hd.bind fun _ ds _ => .refl _ ds)

theorem readAttribute_follows (xs : List Lexeme) :
    Follows .bracket (fun _ => .simple) xs (readAttribute xs) := by
  have hn : Follows .bracket (fun _ => .named) (skipBlanks xs)
      (readName .attributeName (skipBlanks xs)) := by
    refine readName_follows rfl ?_ _
    exact fun x hx => Stage.skipping_of_ne (head_skipBlanks xs x hx) _ _
  refine .passed (passes_blanks rfl xs) (hn.bind fun name as _ => ?_)
  refine .passed (passes_blanks rfl as) ?_
  have hb := head_skipBlanks as
  dsimp only
  generalize skipBlanks as = bs at hb
  cases bs with
  | nil => exact readComparison_follows (by simp) name
  | cons b bs =>
    dsimp only
    split
    · rename_i hd
      exact passes_cons (by rw [Lexeme.isDelim_iff.mp hd]; rfl)
    · rename_i hd
      refine readComparison_follows (fun x hx => ⟨hb x hx, ?_⟩) name
      obtain rfl := Option.some.inj hx
      exact fun h => hd (Lexeme.isDelim_iff.mpr h)

theorem readArgument_follows (name : String) (xs : List Lexeme) :
    Follows .parenthesis (fun _ => .simple) xs (readArgument name xs) := by
  have hv : Follows .parenthesis (fun _ => .argument) (skipBlanks xs)
      (readValue (.argument name) (skipBlanks xs)) := by
    refine readValue_follows rfl ?_ _
    exact fun x hx => Stage.skipping_of_ne (head_skipBlanks xs x hx) _ _
  refine .passed (passes_blanks rfl xs) (hv.bind fun text as _ => ?_)
  have hd : Follows .argument (fun _ => .simple) (skipBlanks as)
      (readDelim .closingParenthesis ')' (skipBlanks as)) := by
    refine readDelim_follows rfl ?_ _
    exact fun x hx => Stage.skipping_of_ne (head_skipBlanks as x hx) _ _
  exact .passed (passes_blanks rfl as) (hd.bind fun _ bs _ => .refl _ bs)

theorem passes_called {xs : List Lexeme} (h : ∀ x ∈ xs.head?, x.body ≠ .delim '(') :
    Passes .called xs .simple xs := by
  cases xs with
  | nil =>
    refine ⟨fun _ => ⟨_, rfl, rfl⟩, fun rest hb => ?_⟩
    cases hb with
    | here hs => cases hs with
      | here hh => cases hh with
        | ending he => cases he
  | cons x xs =>
    -- the two stages go on alike with the first lexeme, and so have the same ends and faults
    have hx : Stage.called.next x.body = Stage.simple.next x.body := if_neg (h x rfl)
    constructor
    · rintro ⟨t, ht, he⟩
      refine ⟨t, ?_, he⟩
      rwa [bodies_cons, List.foldlM_cons, hx]
    · intro rest hb
      cases hb with
      | here hs =>
        cases hs with
        | here hh =>
          cases hh with
          | lexeme hn => exact blames_head (hx.trans hn) xs
        | behind hc hd ht hh =>
          rw [← hd, ← hx, hd] at ht
          exact .here (.behind hc hd ht hh)
      | later ht hb => exact .later (hx.trans ht) hb

theorem readPseudoClass_follows {xs : List Lexeme} (h : ∀ x ∈ xs.head?, x.body ≠ .delim ':') :
    Follows .colon (fun _ => .simple) xs (readPseudoClass xs) := by
  have hn : Follows .colon (fun _ => .called) xs (readName .pseudoClassName xs) := by
    refine readName_follows rfl ?_ _
    exact fun x hx => if_neg (h x hx)
  refine hn.bind fun name as _ => ?_
  cases as with
  | nil => exact passes_called nofun
  | cons a as =>
    dsimp only
    split
    · rename_i hd
      exact .passed (passes_cons (by rw [Lexeme.isDelim_iff.mp hd]; rfl)) (readArgument_follows name as)
    · rename_i hd
      refine passes_called fun x hx he => hd ?_
      obtain rfl := Option.some.inj hx
      exact Lexeme.isDelim_iff.mpr he

theorem readPseudo_follows (xs : List Lexeme) :
    Follows .colon (fun _ => .simple) xs (readPseudo xs) := by
  cases xs with
  | nil => exact readPseudoClass_follows nofun
  | cons x xs =>
    rw [readPseudo]
    split
    · rename_i hd
      have hn : Follows .colons (fun _ => .simple) xs (readName .pseudoElementName xs) :=
        readName_follows rfl (fun _ _ => rfl) _
      refine .passed (passes_cons (t := .colons) (by rw [Lexeme.isDelim_iff.mp hd]; rfl)) ?_
      exact hn.bind fun name as _ => .refl _ as
    · rename_i hd
      refine readPseudoClass_follows fun y hy he => hd ?_
      obtain rfl := Option.some.inj hy
      exact Lexeme.isDelim_iff.mpr he

section

variable {x : Lexeme} {xs ys : List Lexeme} {content : String} {place : Place}

theorem combinator?_passes (h : combinator? x xs = some (content, ys)) (blanks : Bool) :
    Passes (.between (.afterSimple blanks)) (x :: xs) (.between .afterCombinator) ys := by
  unfold combinator? at h
  split at h
  · cases h
    exact passes_cons (by simp only [*]; rfl)
  · cases h
    exact passes_cons (by simp only [*]; rfl)
  · cases h
    exact passes_cons (by simp only [*]; rfl)
  · rename_i hx
    split at h
    · rename_i y ys'
      split at h
      · rename_i hy
        cases h
        exact (passes_cons (t := .bar) (by rw [hx]; rfl)).trans
          (passes_cons (by rw [Lexeme.isDelim_iff.mp hy]; rfl))
      · cases h
    · cases h
  · cases h

theorem next_delim {c : Char} (h : c ≠ '.') (h' : c ≠ '[') (h'' : c ≠ ':') (place : Place) :
    place.next (.delim c) = place.joined c := by
  rw [Place.next, if_neg h, if_neg h', if_neg h'']

theorem next_of_combinator? (h : combinator? x xs = some (content, ys))
    (hp : ∀ blanks, place ≠ .afterSimple blanks) : place.next x.body = none := by
  have hc : ∃ c ∈ ['>', '+', '~', '|'], x.body = .delim c := by
    unfold combinator? at h
    split at h
    · exact ⟨'>', by decide, by assumption⟩
    · exact ⟨'+', by decide, by assumption⟩
    · exact ⟨'~', by decide, by assumption⟩
    · exact ⟨'|', by decide, by assumption⟩
    · cases h
  obtain ⟨c, hc, hx⟩ := hc
  have hn : place.next (.delim c) = place.joined c := by
    refine next_delim ?_ ?_ ?_ place <;> rintro rfl <;> revert hc <;> decide
  rw [hx, hn]
  cases place with
  | afterSimple blanks => exact absurd rfl (hp blanks)
  | _ => rfl

theorem blames_joined (hc : combinator? x xs = none) {c : Char} (hx : x.body = .delim c)
    (hn : place.next (.delim c) = place.joined c) :
    Blames (.between place) (x :: xs) (x :: xs) := by
  cases place with
  | start => exact blames_head (by rw [hx]; exact hn) xs
  | afterCombinator => exact blames_head (by rw [hx]; exact hn) xs
  | afterSimple blanks =>
    have hs : c ∉ ['>', '+', '~'] := by
      intro hm
      simp only [List.mem_cons, List.not_mem_nil, or_false] at hm
      obtain rfl | rfl | rfl := hm <;> simp [combinator?, hx] at hc
    rw [Place.joined, if_neg hs] at hn
    by_cases hb : c = '|'
    · subst hb
      refine .here (.behind (by decide) hx hn ?_)
      cases xs with
      | nil => exact .ending rfl
      | cons y ys =>
        refine .lexeme (if_neg fun hy => ?_)
        simp only [combinator?, hx, if_pos (Lexeme.isDelim_iff.mpr hy)] at hc
        cases hc
    · rw [if_neg hb] at hn
      exact blames_head (by rw [hx]; exact hn) xs

theorem readSimple_follows (hb : ¬ x.isBlank = true) (hc : combinator? x xs = none)
    (place : Place) :
    Follows (.between place) (fun _ => .simple) (x :: xs) (readSimple x xs) := by
  unfold readSimple
  split
  · rename_i name hx
    exact passes_cons (by rw [hx]; rfl)
  · rename_i hx
    have hn : Follows .point (fun _ => .simple) xs (readName .className xs) :=
      readName_follows rfl (fun _ _ => rfl) _
    refine .passed (passes_cons (t := .point) (by rw [hx]; rfl)) ?_
    exact hn.bind fun name as _ => .refl _ as
  · rename_i hx
    exact .passed (passes_cons (by rw [hx]; rfl)) (readAttribute_follows xs)
  · rename_i hx
    exact .passed (passes_cons (by rw [hx]; rfl)) (readPseudo_follows xs)
  · rename_i hh hp ha hs
    cases hx : x.body with
    | blank => exact absurd (Lexeme.isBlank_iff.mpr hx) hb
    | hash name => exact absurd hx (hh name)
    | delim c =>
      refine blames_joined hc hx (next_delim ?_ ?_ ?_ place) <;> rintro rfl
      · exact hp hx
      · exact ha hx
      · exact hs hx
    | _ => exact blames_head (by rw [hx]; rfl) xs

end

end SyntaxQuery.Selector
