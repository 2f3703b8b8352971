import Mathlib.Data.List.Chain
import Mathlib.Data.List.TakeWhile
import SyntaxQuery.Selector.Reader

namespace SyntaxQuery.Selector

def Blanks (s : List Body) : Prop :=
  ∀ b ∈ s, b = .blank

inductive IsValue : Body → String → Prop where
  | ident (name : String) : IsValue (.ident name) name
  | string (text : String) : IsValue (.string text) text
  | number (text : String) : IsValue (.number text) text

inductive IsOperator : List Body → String → Prop where
  | equal : IsOperator [.delim '='] "="
  | marked {c : Char} (h : c ∈ ['~', '|', '^', '$', '*']) :
      IsOperator [.delim c, .delim '='] (String.ofList [c, '='])

inductive IsFlag : List Body → Option String → Prop where
  | absent : IsFlag [] none
  | present {flag : String} {s : List Body} (h : flag ∈ caseFlags) (hs : Blanks s) :
      IsFlag (.ident flag :: s) (some flag)

inductive IsSimple : List Body → Token → Prop where
  | className (name : String) : IsSimple [.delim '.', .ident name] (.className name)
  | id (name : String) : IsSimple [.hash name] (.id name)
  | pseudoClass (name : String) :
      IsSimple [.delim ':', .ident name] (.pseudoClass name none)
  | pseudoElement (name : String) :
      IsSimple [.delim ':', .delim ':', .ident name] (.pseudoElement name)
  | call (name : String) {s₁ s₂ : List Body} {v : Body} {text : String} (h₁ : Blanks s₁)
      (hv : IsValue v text) (h₂ : Blanks s₂) :
      IsSimple (.delim ':' :: .ident name :: .delim '(' :: (s₁ ++ v :: (s₂ ++ [.delim ')'])))
        (.pseudoClass name (some (.text text)))
  | presence (name : String) {s₁ s₂ : List Body} (h₁ : Blanks s₁) (h₂ : Blanks s₂) :
      IsSimple (.delim '[' :: (s₁ ++ .ident name :: (s₂ ++ [.delim ']'])))
        (.property name none none none)
  | comparison (name : String) {s₁ s₂ s₃ s₄ o f : List Body} {operator text : String} {v : Body}
      {flag : Option String} (h₁ : Blanks s₁) (h₂ : Blanks s₂) (ho : IsOperator o operator)
      (h₃ : Blanks s₃) (hv : IsValue v text) (h₄ : Blanks s₄) (hf : IsFlag f flag) :
      IsSimple
        (.delim '[' :: (s₁ ++ .ident name :: (s₂ ++ (o ++ (s₃ ++ v :: (s₄ ++ (f ++ [.delim ']'])))))))
        (.property name (some operator) (some (.text text)) flag)

inductive IsCompound : List Body → List Token → Prop where
  | one {xs : List Body} {t : Token} (h : IsSimple xs t) : IsCompound xs [t]
  | more {xs ys : List Body} {t : Token} {ts : List Token} (h : IsSimple xs t)
      (hs : IsCompound ys ts) : IsCompound (xs ++ ys) (t :: ts)

inductive IsSymbol : List Body → String → Prop where
  | child : IsSymbol [.delim '>'] child
  | next : IsSymbol [.delim '+'] nextSibling
  | previous : IsSymbol [.delim '~'] previousSibling
  | column : IsSymbol [.delim '|', .delim '|'] column

/-- What stands between two compounds: blanks alone, or a written combinator between blanks. -/
inductive IsCombinator : List Body → String → Prop where
  | blanks {s : List Body} (hs : Blanks s) (hne : s ≠ []) : IsCombinator s descendant
  | written {s₁ s₂ o : List Body} {content : String} (h₁ : Blanks s₁) (ho : IsSymbol o content)
      (h₂ : Blanks s₂) : IsCombinator (s₁ ++ (o ++ s₂)) content

inductive IsChain : List Body → List Token → Prop where
  | last {xs : List Body} {ts : List Token} (h : IsCompound xs ts) : IsChain xs ts
  | join {xs ys zs : List Body} {ts us : List Token} {content : String} (h : IsCompound xs ts)
      (hc : IsCombinator ys content) (hs : IsChain zs us) :
      IsChain (xs ++ (ys ++ zs)) (ts ++ .combinator content :: us)

/-- A selector and its tokens. -/
inductive Derives : List Body → List Token → Prop where
  | blank {s : List Body} (hs : Blanks s) : Derives s []
  | chain {s₁ s₂ xs : List Body} {ts : List Token} (h₁ : Blanks s₁) (h : IsChain xs ts)
      (h₂ : Blanks s₂) : Derives (s₁ ++ (xs ++ s₂)) ts

theorem blanks_nil : Blanks [] := by
  intro b hb
  cases hb

theorem Blanks.append {s₁ s₂ : List Body} (h₁ : Blanks s₁) (h₂ : Blanks s₂) :
    Blanks (s₁ ++ s₂) := by
  intro b hb
  exact (List.mem_append.mp hb).elim (h₁ b) (h₂ b)

theorem IsFlag.trail {s f s' : List Body} {flag : Option String} (hs : Blanks s)
    (hf : IsFlag f flag) (hs' : Blanks s') :
    ∃ r g, Blanks r ∧ IsFlag g flag ∧ s ++ (f ++ s') = r ++ g := by
  cases hf with
  | absent => exact ⟨s ++ s', [], hs.append hs', .absent, by simp⟩
  | present h hb => exact ⟨s, _, hs, .present h (hb.append hs'), rfl⟩

theorem IsOperator.mem {o : List Body} {operator : String} (h : IsOperator o operator) :
    operator ∈ operators := by
  cases h with
  | equal => decide
  | marked hc =>
    simp only [List.mem_cons, List.not_mem_nil, or_false] at hc
    obtain rfl | rfl | rfl | rfl | rfl := hc <;> decide

theorem IsFlag.mem {f : List Body} {flag : Option String} (h : IsFlag f flag) :
    ∀ x ∈ flag, x ∈ caseFlags := by
  cases h with
  | absent => simp
  | present h _ => simpa using h

theorem IsChain.cons {xs zs : List Body} {t : Token} {ts : List Token} (h : IsSimple xs t)
    (hs : IsChain zs ts) : IsChain (xs ++ zs) (t :: ts) := by
  cases hs with
  | last hc => exact .last (.more h hc)
  | join hc hk hs =>
    rw [← List.append_assoc]
    exact .join (.more h hc) hk hs

theorem IsValue.ne_blank {v : Body} {text : String} (hv : IsValue v text) (bs : List Body) :
    (v :: bs).head? ≠ some .blank := by
  cases hv <;> simp

theorem IsFlag.ne_blank {f : List Body} {flag : Option String} (hf : IsFlag f flag)
    (bs : List Body) : (f ++ .delim ']' :: bs).head? ≠ some .blank := by
  cases hf <;> simp

theorem IsOperator.ne_blank {o : List Body} {operator : String} (ho : IsOperator o operator)
    (bs : List Body) : (o ++ bs).head? ≠ some .blank := by
  cases ho <;> simp

theorem IsOperator.ne_bracket {o : List Body} {operator : String} (ho : IsOperator o operator)
    (bs : List Body) : ∃ c, c ≠ ']' ∧ (o ++ bs).head? = some (.delim c) := by
  cases ho with
  | equal => exact ⟨'=', by decide, rfl⟩
  | @marked c hc =>
    refine ⟨c, ?_, rfl⟩
    rintro rfl
    simp at hc

def Begins (b : Body) : Prop :=
  b ≠ .blank ∧ ∀ c, b = .delim c → c ∉ ['>', '+', '~', '|', '(']

theorem IsSimple.begins {zs : List Body} {t : Token} (h : IsSimple zs t) :
    ∃ b bs, zs = b :: bs ∧ Begins b := by
  cases h <;> exact ⟨_, _, rfl, by simp [Begins]⟩

theorem IsCompound.begins {zs : List Body} {ts : List Token} (h : IsCompound zs ts) :
    ∃ b bs, zs = b :: bs ∧ Begins b := by
  cases h with
  | one h => exact h.begins
  | more h hs =>
    obtain ⟨b, bs, rfl, hb⟩ := h.begins
    exact ⟨b, _, rfl, hb⟩

theorem Begins.ne_parenthesis {b : Body} (h : Begins b) (bs : List Body) :
    (b :: bs).head? ≠ some (.delim '(') := by
  intro hb
  have := h.2 '(' (Option.some.inj hb)
  simp at this

theorem IsSymbol.begins {o : List Body} {content : String} (ho : IsSymbol o content) :
    ∃ c cs, o = .delim c :: cs ∧ c ≠ '(' := by
  cases ho <;> exact ⟨_, _, rfl, by decide⟩

theorem Blanks.ne_parenthesis {s : List Body} (hs : Blanks s) :
    s.head? ≠ some (.delim '(') := by
  intro h
  cases hs _ (List.mem_of_head? h)

theorem IsCombinator.ne_parenthesis {zs : List Body} {content : String}
    (hz : IsCombinator zs content) (bs : List Body) : (zs ++ bs).head? ≠ some (.delim '(') := by
  cases hz with
  | blanks hs hne =>
    cases zs with
    | nil => exact (hne rfl).elim
    | cons b zs => exact hs.ne_parenthesis
  | @written s₁ s₂ o _ h₁ ho h₂ =>
    obtain ⟨c, cs, rfl, hc⟩ := ho.begins
    cases s₁ with
    | nil => simpa using hc
    | cons b s₁ => rw [h₁ b List.mem_cons_self]; simp

/-- No combinator stands at an end or beside another one. -/
structure WellPlaced (ts : List Token) : Prop where
  first : ∀ t ∈ ts.head?, t.isCombinator = false
  last : ∀ t ∈ ts.getLast?, t.isCombinator = false
  apart : ts.IsChain fun a b => a.isCombinator = false ∨ b.isCombinator = false

theorem IsSimple.isCombinator {xs : List Body} {t : Token} (h : IsSimple xs t) :
    t.isCombinator = false := by
  cases h <;> rfl

theorem wellPlaced_cons {t : Token} {ts : List Token} (ht : t.isCombinator = false)
    (hw : WellPlaced ts) : WellPlaced (t :: ts) := by
  refine ⟨by simpa using ht, ?_, List.isChain_cons.mpr ⟨fun _ _ => .inl ht, hw.apart⟩⟩
  cases ts with
  | nil => simpa using ht
  | cons u ts => simpa using hw.last

theorem wellPlaced_join {ts us : List Token} (hts : ts ≠ []) (ht : WellPlaced ts) (hus : us ≠ [])
    (hu : WellPlaced us) (content : String) : WellPlaced (ts ++ .combinator content :: us) := by
  refine ⟨?_, ?_, List.isChain_append.mpr ⟨ht.apart, List.isChain_cons.mpr ⟨?_, hu.apart⟩, ?_⟩⟩
  · obtain ⟨t, ts, rfl⟩ := List.exists_cons_of_ne_nil hts
    exact ht.first
  · obtain ⟨u, us, rfl⟩ := List.exists_cons_of_ne_nil hus
    simpa using hu.last
  · exact fun u hm => .inr (hu.first u hm)
  · exact fun t hm _ _ => .inl (ht.last t hm)

theorem wellPlaced_cases {t : Token} {ts : List Token} (h : WellPlaced (t :: ts)) :
    ts = [] ∨ (∃ u us, ts = u :: us ∧ WellPlaced (u :: us)) ∨
      ∃ content u us, ts = .combinator content :: u :: us ∧ WellPlaced (u :: us) := by
  have ht : t.isCombinator = false := h.first t rfl
  cases ts with
  | nil => exact .inl rfl
  | cons u us =>
    obtain ⟨hu, hs⟩ := List.isChain_cons_cons.mp h.apart
    cases huc : u.isCombinator with
    | false => exact .inr (.inl ⟨u, us, rfl, ⟨by simpa using huc, by simpa using h.last, hs⟩⟩)
    | true =>
      cases u with
      | combinator content =>
        cases us with
        | nil =>
          have := h.last (.combinator content) rfl
          cases this
        | cons v vs =>
          obtain ⟨hv, hs⟩ := List.isChain_cons_cons.mp hs
          have hv : v.isCombinator = false := hv.resolve_left (by simp [Token.isCombinator])
          exact .inr (.inr ⟨content, v, vs, rfl, ⟨by simpa using hv, by simpa using h.last, hs⟩⟩)
      | _ => cases huc

theorem IsCompound.wellPlaced {xs : List Body} {ts : List Token} (h : IsCompound xs ts) :
    ts ≠ [] ∧ WellPlaced ts := by
  induction h with
  | one h => exact ⟨by simp, wellPlaced_cons h.isCombinator ⟨by simp, by simp, by simp⟩⟩
  | more h _ ih => exact ⟨by simp, wellPlaced_cons h.isCombinator ih.2⟩

theorem IsChain.wellPlaced {xs : List Body} {ts : List Token} (h : IsChain xs ts) :
    ts ≠ [] ∧ WellPlaced ts := by
  induction h with
  | last hc => exact hc.wellPlaced
  | join hc _ _ ih =>
    exact ⟨by simp, wellPlaced_join hc.wellPlaced.1 hc.wellPlaced.2 ih.1 ih.2 _⟩

theorem Derives.wellPlaced {xs : List Body} {ts : List Token} (h : Derives xs ts) :
    WellPlaced ts := by
  cases h with
  | blank hs => exact ⟨by simp, by simp, by simp⟩
  | chain h₁ hc h₂ => exact hc.wellPlaced.2

def bodies (xs : List Lexeme) : List Body :=
  xs.map Lexeme.body

@[simp, grind =] theorem bodies_nil : bodies [] = [] := rfl

@[simp, grind =] theorem bodies_cons (x : Lexeme) (xs : List Lexeme) :
    bodies (x :: xs) = x.body :: bodies xs := rfl

@[simp] theorem bodies_append (xs ys : List Lexeme) : bodies (xs ++ ys) = bodies xs ++ bodies ys :=
  List.map_append

theorem Lexeme.isBlank_iff {x : Lexeme} : x.isBlank = true ↔ x.body = .blank :=
  decide_eq_true_iff

theorem Lexeme.isDelim_iff {x : Lexeme} {c : Char} : x.isDelim c = true ↔ x.body = .delim c :=
  decide_eq_true_iff

theorem bodies_eq_cons {xs : List Lexeme} {b : Body} {bs : List Body} (h : bodies xs = b :: bs) :
    ∃ x ys, xs = x :: ys ∧ x.body = b ∧ bodies ys = bs :=
  List.map_eq_cons_iff.mp h

end SyntaxQuery.Selector
