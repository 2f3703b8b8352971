import SyntaxQuery.Proofs.Selector.Blame

namespace SyntaxQuery.Selector

def Settles {α : Type} (s : Stage) (xs : List Lexeme) : Except Fault α → Prop
  | .ok _ => Ends s xs
  | .error fault => Blames s xs fault.rest

theorem Settles.passed {α : Type} {s t : Stage} {xs ys : List Lexeme} {r : Except Fault α}
    (h : Passes s xs t ys) (hr : Settles t ys r) : Settles s xs r := by
  cases r with
  | ok a => exact h.ends hr
  | error fault => exact h.blames fault.rest hr

theorem Settles.map {α β : Type} {s : Stage} {xs : List Lexeme} {r : Except Fault α}
    (h : Settles s xs r) (f : α → β) : Settles s xs (r.map f) := by
  cases r with
  | ok a => exact h
  | error fault => exact h

theorem readTokens_settles (place : Place) (xs : List Lexeme) :
    Settles (.between place) xs (readTokens place xs) := by
  induction place, xs using readTokens.induct with
  | case1 =>
    rw [readTokens, if_pos rfl]
    exact blames_end rfl
  | case2 place hp =>
    rw [readTokens, if_neg hp]
    exact ⟨_, rfl, decide_eq_true hp⟩
  | case3 place x xs hb ih =>
    rw [readTokens_blank hb]
    exact ih.passed (passes_cons (by rw [Lexeme.isBlank_iff.mp hb]; rfl))
  | case4 x xs hb content ys hc _ blanks ih =>
    rw [readTokens_symbol hb hc]
    exact (ih.passed (combinator?_passes hc blanks)).map _
  | case5 x xs hb content ys hc _ place hp =>
    rw [readTokens_misplaced hb hc hp]
    exact blames_head (s := .between place) (next_of_combinator? hc hp) xs
  | case6 place x xs hb hc fault hs =>
    rw [readTokens_fault hb hc hs]
    have h := readSimple_follows hb hc place
    rwa [hs] at h
  | case7 place x xs hb hc t ys hs _ ih =>
    rw [readTokens_simple hb hc hs]
    have h := readSimple_follows hb hc place
    rw [hs] at h
    exact (ih.passed h).map _

/-- Lexemes that some selector begins with. -/
def Viable (xs : List Lexeme) : Prop :=
  ∃ more ts, readTokens .start (xs ++ more) = .ok ts

theorem exists_ok_iff {xs : List Lexeme} :
    (∃ ts, readTokens .start xs = .ok ts) ↔ Ends (.between .start) xs := by
  have h := readTokens_settles .start xs
  cases hr : readTokens .start xs with
  | ok ts =>
    rw [hr] at h
    exact ⟨fun _ => h, fun _ => ⟨ts, rfl⟩⟩
  | error fault =>
    rw [hr] at h
    exact ⟨nofun, fun he => absurd he h.not_ends⟩

/-- Selectors begin with the lexemes that lead from the start to a stage. -/
theorem viable_iff {xs : List Lexeme} :
    Viable xs ↔ ∃ t, (bodies xs).foldlM Stage.next (.between .start) = some t := by
  constructor
  · rintro ⟨more, hm⟩
    obtain ⟨u, hu, -⟩ := exists_ok_iff.mp hm
    rw [bodies_append, List.foldlM_append] at hu
    obtain ⟨t, ht, -⟩ := Option.bind_eq_some_iff.mp hu
    exact ⟨t, ht⟩
  · rintro ⟨t, ht⟩
    obtain ⟨u, hu, he⟩ := t.ends_ending
    refine ⟨t.ending.map (⟨·, 0⟩), exists_ok_iff.mpr ⟨u, ?_, he⟩⟩
    have hb : bodies (t.ending.map (⟨·, 0⟩)) = t.ending := by
      simp [bodies, Function.comp_def]
    rw [bodies_append, List.foldlM_append, ht, hb]
    exact hu

theorem Blames.split {s : Stage} {xs rest : List Lexeme} (h : Blames s xs rest) :
    ∃ before t, xs = before ++ rest ∧ (bodies before).foldlM Stage.next s = some t ∧
      Stuck t rest := by
  induction h with
  | here h => exact ⟨[], _, rfl, rfl, h⟩
  | @later s t x xs rest hx _ ih =>
    obtain ⟨before, u, rfl, hu, hs⟩ := ih
    refine ⟨x :: before, u, rfl, ?_, hs⟩
    rw [bodies_cons, List.foldlM_cons, hx]
    exact hu

theorem viable_append {before more : List Lexeme} {t : Stage}
    (h : (bodies before).foldlM Stage.next (.between .start) = some t) :
    Viable (before ++ more) ↔ ∃ u, (bodies more).foldlM Stage.next t = some u := by
  rw [viable_iff, bodies_append, List.foldlM_append, h]
  rfl

theorem Halts.foldlM_take {s : Stage} {xs : List Lexeme} (h : Halts s xs) (hl : 0 < xs.length)
    (n : Nat) : (bodies (xs.take (n + 1))).foldlM Stage.next s = none := by
  cases h with
  | ending h => cases hl
  | lexeme h =>
    rw [List.take_succ_cons, bodies_cons, List.foldlM_cons, h]
    rfl

theorem Stuck.foldlM_take {s : Stage} {xs : List Lexeme} (h : Stuck s xs) (hl : 1 < xs.length) :
    (bodies (xs.take 2)).foldlM Stage.next s = none := by
  cases h with
  | here h => exact h.foldlM_take (Nat.zero_lt_of_lt hl) 1
  | behind _ hx ht h =>
    rw [List.take_succ_cons, bodies_cons, List.foldlM_cons, hx, ht]
    exact h.foldlM_take (Nat.lt_of_succ_lt_succ hl) 0

theorem Stuck.mark {s t : Stage} {xs : List Lexeme} (h : Stuck s xs)
    (ht : (bodies (xs.take 1)).foldlM Stage.next s = some t) :
    ∀ x ∈ xs.head?, ∃ c ∈ marks, x.body = .delim c := by
  intro x hx
  cases h with
  | here h =>
    rw [h.foldlM_take (by cases xs <;> simp_all) 0] at ht
    cases ht
  | behind hc hd _ _ =>
    obtain rfl := Option.some.inj hx
    exact ⟨_, hc, hd⟩

theorem position_eq (before : List Lexeme) (fault : Fault) (length : Nat) :
    fault.position length =
      ((before ++ fault.rest)[before.length]?.map Lexeme.position).getD length := by
  rw [List.getElem?_append_right (Nat.le_refl _), Nat.sub_self, Fault.position]
  cases fault.rest <;> rfl

/-- A refused reading blames the lexeme at which it became hopeless: the lexemes before the blamed one
begin some selector, and with the one behind it none; if there is none behind it, the lexemes as a
whole are refused. A blamed lexeme with which a selector could still go on is the first character of
a symbol of two. Messages give the position of the blamed lexeme, or the length of the text if its
end is blamed. -/
theorem fault_where_hopeless {xs : List Lexeme} {fault : Fault}
    (h : readTokens .start xs = .error fault) :
    ∃ k ≤ xs.length, fault.rest = xs.drop k ∧ Viable (xs.take k) ∧
      (k + 1 < xs.length → ¬ Viable (xs.take (k + 2))) ∧
      (∀ ts, readTokens .start xs ≠ .ok ts) ∧
      (∀ x ∈ xs[k]?, Viable (xs.take (k + 1)) → ∃ c ∈ marks, x.body = .delim c) ∧
      ∀ selector, lex selector.toList = .ok xs →
        ∃ e, (tokenize selector).value = .error e ∧
          e.message = fault.reason ++ " at position " ++
            toString ((xs[k]?.map Lexeme.position).getD selector.length) ++ " in " ++
            Text.quoted selector := by
  have hb := readTokens_settles .start xs
  rw [h] at hb
  obtain ⟨before, t, hxs, ht, hs⟩ := hb.split
  have hv : ∀ more, Viable (before ++ more) ↔ ∃ u, (bodies more).foldlM Stage.next t = some u :=
    fun more => viable_append ht
  have htake : ∀ i, xs.take (before.length + i) = before ++ fault.rest.take i := by
    intro i
    rw [hxs, List.take_length_add_append]
  have hlen : xs.length = before.length + fault.rest.length := by
    rw [hxs, List.length_append]
  refine ⟨before.length, by omega, by rw [hxs, List.drop_left], ?_, fun hl => ?_, fun ts hr => ?_,
    fun x hx => ?_, fun selector hl => ?_⟩
  · rw [hxs, List.take_left]
    exact viable_iff.mpr ⟨t, ht⟩
  · rw [htake, hv]
    rw [hlen] at hl
    rintro ⟨u, hu⟩
    rw [hs.foldlM_take (by omega)] at hu
    cases hu
  · rw [h] at hr
    cases hr
  · rw [htake, hv]
    rintro ⟨u, hu⟩
    refine hs.mark hu x ?_
    rwa [hxs, List.getElem?_append_right (Nat.le_refl _), Nat.sub_self, ← List.head?_eq_getElem?]
      at hx
  · refine ⟨.structural selector fault, ?_, ?_⟩
    · rw [value_tokenize, parse, hl]
      simp only [h]
      rfl
    · rw [hxs, ← position_eq]
      rfl

def loneBar : List Lexeme :=
  [⟨.delim '.', 0⟩, ⟨.ident "a", 1⟩, ⟨.delim '[', 2⟩, ⟨.ident "b", 3⟩, ⟨.delim '|', 4⟩,
    ⟨.ident "c", 5⟩, ⟨.delim ']', 6⟩]

theorem loneBar_blamed :
    readTokens .start loneBar = .error ⟨.expected .operator, loneBar.drop 4⟩ ∧
      Viable (loneBar.take 4) ∧ ¬ Viable (loneBar.take 6) ∧
      ∃ e, (tokenize ".a[b|c]").value = .error e ∧
        e.message = "Expected attribute operator or ']', got DELIM '|' at position 4 in '.a[b|c]'" := by
  have hl : lex ".a[b|c]".toList = .ok loneBar := by decide +kernel
  have h : readTokens .start loneBar = .error ⟨.expected .operator, loneBar.drop 4⟩ := by
    rw [loneBar, readTokens_simple (by decide) rfl rfl, readTokens_fault (by decide) rfl rfl]
    rfl
  obtain ⟨k, hk, hr, hv, hn, -, -, hm⟩ := fault_where_hopeless h
  obtain rfl : k = 4 := by
    have := congrArg List.length hr
    simp [loneBar] at this hk
    omega
  refine ⟨h, hv, hn (by decide), ?_⟩
  obtain ⟨e, he, hm⟩ := hm _ hl
  exact ⟨e, he, hm.trans (by decide +kernel)⟩

end SyntaxQuery.Selector
