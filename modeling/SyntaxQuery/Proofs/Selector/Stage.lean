import SyntaxQuery.Proofs.Selector.Completeness

namespace SyntaxQuery.Selector

/-- How far a selector has come, as far as it matters for what can follow: between two tokens, or
inside of a combinator or a simple selector. -/
inductive Stage where
  | between (place : Place)
  | bar
  | point
  | colon
  | colons
  | called
  | parenthesis
  | argument
  | bracket
  | named
  | mark
  | operator
  | value
  | flag
deriving DecidableEq

def marks : List Char := ['~', '|', '^', '$', '*']

def Place.joined (place : Place) (c : Char) : Option Stage :=
  match place with
  | .afterSimple _ =>
    if c ∈ ['>', '+', '~'] then some (.between .afterCombinator)
    else if c = '|' then some .bar
    else none
  | _ => none

def Place.next (place : Place) : Body → Option Stage
  | .blank => some (.between place.afterBlank)
  | .hash _ => some (.between (.afterSimple false))
  | .delim c =>
    if c = '.' then some .point
    else if c = '[' then some .bracket
    else if c = ':' then some .colon
    else place.joined c
  | _ => none

namespace Stage

def simple : Stage :=
  between (.afterSimple false)

def atName (t : Stage) : Body → Option Stage
  | .ident _ => some t
  | _ => none

def atValue (t : Stage) : Body → Option Stage
  | .ident _ | .string _ | .number _ => some t
  | _ => none

def atDelim (c : Char) (t : Stage) (b : Body) : Option Stage :=
  if b = .delim c then some t else none

def atMark : Body → Option Stage
  | .delim c => if c ∈ marks then some mark else none
  | _ => none

def atFlag : Body → Option Stage
  | .ident name => if name ∈ caseFlags then some flag else none
  | b => atDelim ']' simple b

def skipping (s : Stage) (go : Body → Option Stage) : Body → Option Stage
  | .blank => some s
  | b => go b

def next : Stage → Body → Option Stage
  | between place, b => place.next b
  | bar, b => atDelim '|' (between .afterCombinator) b
  | point, b => atName simple b
  | colon, b => if b = .delim ':' then some colons else atName called b
  | colons, b => atName simple b
  | called, b => if b = .delim '(' then some parenthesis else Place.next (.afterSimple false) b
  | parenthesis, b => skipping parenthesis (atValue argument) b
  | argument, b => skipping argument (atDelim ')' simple) b
  | bracket, b => skipping bracket (atName named) b
  | named, b =>
    if b = .delim ']' then some simple
    else if b = .delim '=' then some operator
    else skipping named atMark b
  | mark, b => atDelim '=' operator b
  | operator, b => skipping operator (atValue value) b
  | value, b => skipping value atFlag b
  | flag, b => skipping flag (atDelim ']' simple) b

def ends : Stage → Bool
  | between place => place ≠ .afterCombinator
  | called => true
  | _ => false

def ending : Stage → List Body
  | between .afterCombinator => [.hash "a"]
  | between _ | called => []
  | bar => [.delim '|', .hash "a"]
  | point | colon | colons => [.ident "a"]
  | parenthesis => [.ident "a", .delim ')']
  | argument => [.delim ')']
  | bracket => [.ident "a", .delim ']']
  | named | value | flag => [.delim ']']
  | mark => [.delim '=', .ident "a", .delim ']']
  | operator => [.ident "a", .delim ']']

theorem skipping_of_ne {b : Body} (h : b ≠ .blank) (s : Stage) (go : Body → Option Stage) :
    skipping s go b = go b := by
  cases b with
  | blank => exact absurd rfl h
  | _ => rfl

theorem atValue_eq (t : Stage) (x : Lexeme) : atValue t x.body = x.value?.map fun _ => t := by
  rw [Lexeme.value?]
  cases x.body <;> rfl

theorem ends_ending (s : Stage) : ∃ t, s.ending.foldlM next s = some t ∧ t.ends = true := by
  cases s with
  | between place => cases place <;> exact ⟨_, rfl, rfl⟩
  | _ => exact ⟨_, rfl, rfl⟩

end Stage

def Ends (s : Stage) (xs : List Lexeme) : Prop :=
  ∃ t, (bodies xs).foldlM Stage.next s = some t ∧ t.ends = true

inductive Halts : Stage → List Lexeme → Prop where
  | ending {s : Stage} (h : s.ends = false) : Halts s []
  | lexeme {s : Stage} {x : Lexeme} {xs : List Lexeme} (h : s.next x.body = none) : Halts s (x :: xs)

/-- No selector goes on with the first of these lexemes, or it is the first character of a symbol of
two, and none goes on with the one behind it. -/
inductive Stuck : Stage → List Lexeme → Prop where
  | here {s : Stage} {xs : List Lexeme} (h : Halts s xs) : Stuck s xs
  | behind {s t : Stage} {x : Lexeme} {xs : List Lexeme} {c : Char} (hc : c ∈ marks)
      (hx : x.body = .delim c) (ht : s.next (.delim c) = some t) (h : Halts t xs) :
      Stuck s (x :: xs)

/-- A selector goes on with lexemes up to a rest of them, and is stuck there. -/
inductive Blames : Stage → List Lexeme → List Lexeme → Prop where
  | here {s : Stage} {xs : List Lexeme} (h : Stuck s xs) : Blames s xs xs
  | later {s t : Stage} {x : Lexeme} {xs rest : List Lexeme} (hx : s.next x.body = some t)
      (h : Blames t xs rest) : Blames s (x :: xs) rest

structure Passes (s : Stage) (xs : List Lexeme) (t : Stage) (ys : List Lexeme) : Prop where
  ends : Ends t ys → Ends s xs
  blames : ∀ rest, Blames t ys rest → Blames s xs rest

def Follows {α : Type} (s : Stage) (t : α → Stage) (xs : List Lexeme) :
    Except Fault (α × List Lexeme) → Prop
  | .ok (a, ys) => Passes s xs (t a) ys
  | .error fault => Blames s xs fault.rest

section

variable {s t u : Stage} {x : Lexeme} {xs ys zs rest : List Lexeme}

theorem ends_cons (h : s.next x.body = some t) : Ends s (x :: xs) ↔ Ends t xs := by
  simp only [Ends, bodies_cons, List.foldlM_cons, h, Option.bind_eq_bind, Option.bind_some]

theorem Halts.not_ends (h : Halts s xs) : ¬ Ends s xs := by
  rintro ⟨t, ht, he⟩
  cases h with
  | ending h =>
    cases ht
    rw [h] at he
    cases he
  | lexeme h =>
    rw [bodies_cons, List.foldlM_cons, h] at ht
    cases ht

theorem Stuck.not_ends (h : Stuck s xs) : ¬ Ends s xs := by
  cases h with
  | here h => exact h.not_ends
  | behind _ hx ht h =>
    rw [← hx] at ht
    rw [ends_cons ht]
    exact h.not_ends

theorem Blames.not_ends (h : Blames s xs rest) : ¬ Ends s xs := by
  induction h with
  | here h => exact h.not_ends
  | later hx _ ih => rwa [ends_cons hx]

theorem Passes.refl (s : Stage) (xs : List Lexeme) : Passes s xs s xs :=
  ⟨id, fun _ => id⟩

theorem Passes.trans (h : Passes s xs t ys) (h' : Passes t ys u zs) : Passes s xs u zs :=
  ⟨fun he => h.ends (h'.ends he), fun rest hb => h.blames rest (h'.blames rest hb)⟩

theorem passes_cons (h : s.next x.body = some t) : Passes s (x :: xs) t xs :=
  ⟨(ends_cons h).mpr, fun _ => .later h⟩

theorem passes_blanks (h : s.next .blank = some s) (xs : List Lexeme) :
    Passes s xs s (skipBlanks xs) := by
  induction xs with
  | nil => exact .refl s []
  | cons x xs ih =>
    by_cases hx : x.isBlank = true
    · have hp : Passes s (x :: xs) s xs := passes_cons (by rw [Lexeme.isBlank_iff.mp hx, h])
      rw [skipBlanks, List.dropWhile_cons_of_pos hx]
      exact hp.trans ih
    · rw [skipBlanks, List.dropWhile_cons_of_neg hx]
      exact .refl s (x :: xs)

theorem head_skipBlanks (xs : List Lexeme) : ∀ x ∈ (skipBlanks xs).head?, x.body ≠ .blank := by
  intro x hx hb
  have hn := List.head?_dropWhile_not Lexeme.isBlank xs
  rw [← skipBlanks, Option.mem_def.mp hx] at hn
  simp [Lexeme.isBlank_iff.mpr hb] at hn

end

section

variable {α β : Type} {s t : Stage} {xs ys : List Lexeme}

theorem Follows.passed {u : α → Stage} {r : Except Fault (α × List Lexeme)} (h : Passes s xs t ys)
    (hr : Follows t u ys r) : Follows s u xs r := by
  cases r with
  | ok p => exact h.trans hr
  | error fault => exact h.blames fault.rest hr

theorem Follows.bind {u : α → Stage} {v : β → Stage} {r : Except Fault (α × List Lexeme)}
    {f : α × List Lexeme → Except Fault (β × List Lexeme)} (h : Follows s u xs r)
    (hf : ∀ a ys, r = .ok (a, ys) → Follows (u a) v ys (f (a, ys))) : Follows s v xs (r >>= f) := by
  cases r with
  | ok p => exact .passed h (hf p.1 p.2 rfl)
  | error fault => exact h

end

end SyntaxQuery.Selector
