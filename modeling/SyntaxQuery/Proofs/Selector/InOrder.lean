import SyntaxQuery.Proofs.Selector.Completeness

namespace SyntaxQuery.Selector

/-- A token as selector text can say it: a comparison has one of the operators, a text and at most a
flag for the case of letters, and a combinator is one of the five. -/
inductive Token.InOrder : Token → Prop where
  | className (name : String) : InOrder (.className name)
  | id (name : String) : InOrder (.id name)
  | presence (name : String) : InOrder (.property name none none none)
  | comparison (name : String) {operator : String} (text : String) {flag : Option String}
      (ho : operator ∈ operators) (hf : ∀ f ∈ flag, f ∈ caseFlags) :
      InOrder (.property name (some operator) (some (.text text)) flag)
  | combinator {content : String}
      (h : content ∈ [descendant, Selector.child, nextSibling, previousSibling, column]) :
      InOrder (.combinator content)
  | pseudoClass (name : String) (argument : Option String) :
      InOrder (.pseudoClass name (argument.map .text))
  | pseudoElement (name : String) : InOrder (.pseudoElement name)

theorem IsSimple.inOrder {xs : List Body} {t : Token} (h : IsSimple xs t) : t.InOrder := by
  cases h with
  | className name => exact .className name
  | id name => exact .id name
  | pseudoClass name => exact .pseudoClass name none
  | pseudoElement name => exact .pseudoElement name
  | @call name _ _ _ text _ _ _ => exact .pseudoClass name (some text)
  | presence name _ _ => exact .presence name
  | comparison name _ _ ho _ _ _ hf => exact .comparison name _ ho.mem hf.mem

theorem IsCombinator.inOrder {xs : List Body} {content : String} (h : IsCombinator xs content) :
    (Token.combinator content).InOrder := by
  cases h with
  | blanks _ _ => exact .combinator (by simp)
  | written _ ho _ => cases ho <;> exact .combinator (by simp)

theorem IsCompound.inOrder {xs : List Body} {ts : List Token} (h : IsCompound xs ts) :
    ∀ t ∈ ts, t.InOrder := by
  induction h with
  | one h => exact List.forall_mem_singleton.mpr h.inOrder
  | more h _ ih => exact List.forall_mem_cons.mpr ⟨h.inOrder, ih⟩

theorem IsChain.inOrder {xs : List Body} {ts : List Token} (h : IsChain xs ts) :
    ∀ t ∈ ts, t.InOrder := by
  induction h with
  | last h => exact h.inOrder
  | join h hc _ ih =>
    exact List.forall_mem_append.mpr ⟨h.inOrder, List.forall_mem_cons.mpr ⟨hc.inOrder, ih⟩⟩

theorem Derives.inOrder {xs : List Body} {ts : List Token} (h : Derives xs ts) :
    ∀ t ∈ ts, t.InOrder := by
  cases h with
  | blank _ => exact fun t ht => absurd ht List.not_mem_nil
  | chain _ hc _ => exact hc.inOrder

/-- All tokens that are read from a selector text are in order. -/
theorem inOrder_of_parse {selector : String} {ts : List Token} (h : parse selector = .ok ts) :
    ∀ t ∈ ts, t.InOrder := by
  obtain ⟨xs, -, hr⟩ := parse_eq_ok.mp h
  exact (readTokens_eq_ok.mp hr).inOrder

end SyntaxQuery.Selector
