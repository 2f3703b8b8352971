import SyntaxQuery.Proofs.Tree.PostOrder
import SyntaxQuery.Query.Run

namespace SyntaxQuery.Query

open SyntaxQuery.Journal SyntaxQuery.Tree

inductive Fault where
  | refused (e : Refusal)
  | unknown (e : Unknown)
  | noNumber
  | noInteger
  | infinite
  | tooLong

/-- Something that a query does: the nodes from which it looks at other nodes, what it writes, and
what it gives or what breaks it off. -/
structure Attempt (α : Type) where
  asked : List Located
  entries : List Entry
  outcome : Except Fault α

namespace Attempt

variable {α β γ δ : Type}

instance : Monad Attempt where
  pure a := ⟨[], [], .ok a⟩
  bind x f :=
    match x.outcome with
    | .ok a => ⟨x.asked ++ (f a).asked, x.entries ++ (f a).entries, (f a).outcome⟩
    | .error e => ⟨x.asked, x.entries, .error e⟩

def raise (e : Fault) : Attempt α :=
  ⟨[], [], .error e⟩

def rescue (x : Attempt α) (handle : Fault → Option (Attempt α)) : Attempt α :=
  match x.outcome with
  | .ok _ => x
  | .error e =>
    match handle e with
    | some y => ⟨x.asked ++ y.asked, x.entries ++ y.entries, y.outcome⟩
    | none => x

def ask (n : Located) : Attempt Unit :=
  ⟨[n], [], .ok ()⟩

def ofLogged (x : Logged α) : Attempt α :=
  ⟨[], x.entries, .ok x.value⟩

def lookUp : Except Unknown α → Attempt α
  | .ok a => pure a
  | .error e => raise (.unknown e)

theorem bind_of_ok {x : Attempt α} {a : α} (h : x.outcome = .ok a) (f : α → Attempt β) :
    x >>= f = ⟨x.asked ++ (f a).asked, x.entries ++ (f a).entries, (f a).outcome⟩ := by
  simp only [bind, h]

theorem bind_of_error {x : Attempt α} {e : Fault} (h : x.outcome = .error e) (f : α → Attempt β) :
    x >>= f = ⟨x.asked, x.entries, .error e⟩ := by
  simp only [bind, h]

theorem rescue_of_ok {x : Attempt α} {a : α} (h : x.outcome = .ok a)
    (handle : Fault → Option (Attempt α)) : x.rescue handle = x := by
  simp only [rescue, h]

theorem lookUp_ok_bind (a : α) (f : α → Attempt β) : lookUp (.ok a) >>= f = f a := rfl

/-- An attempt does what is expected of it: nothing breaks it off, it writes the same entries, and
it gives a related value. -/
def Does (R : α → β → Prop) (x : Attempt α) (y : Logged β) : Prop :=
  ∃ a, x.outcome = .ok a ∧ R a y.value ∧ x.entries = y.entries

variable {R : α → β → Prop} {S : γ → δ → Prop}

theorem does_pure {a : α} {b : β} (h : R a b) : Does R (pure a) (pure b) :=
  ⟨a, rfl, h, rfl⟩

theorem does_ofLogged (y : Logged α) : Does Eq (ofLogged y) y :=
  ⟨y.value, rfl, rfl, rfl⟩

theorem Does.bind {x : Attempt α} {y : Logged β} (h : Does R x y) {f : α → Attempt γ}
    {g : β → Logged δ} (hf : ∀ a, R a y.value → Does S (f a) (g y.value)) :
    Does S (x >>= f) (y >>= g) := by
  obtain ⟨a, hx, hr, he⟩ := h
  obtain ⟨c, hc, hs, he'⟩ := hf a hr
  rw [bind_of_ok hx]
  exact ⟨c, hc, hs, by rw [Logged.entries_bind, he, he']⟩

theorem Does.silent {x : Attempt α} {a : α} (h : Does Eq x (pure a)) {f : α → Attempt γ}
    {z : Logged δ} (hf : Does S (f a) z) : Does S (x >>= f) z := by
  obtain ⟨b, hx, rfl, he⟩ := h
  obtain ⟨c, hc, hs, he'⟩ := hf
  rw [bind_of_ok hx]
  exact ⟨c, hc, hs, by rw [he, he']; rfl⟩

theorem Does.map {S : γ → β → Prop} {x : Attempt α} {y : Logged β} (h : Does R x y) {f : α → γ}
    (hf : ∀ a, R a y.value → S (f a) y.value) : Does S (x >>= fun a => pure (f a)) y := by
  obtain ⟨a, hx, hr, he⟩ := h
  rw [bind_of_ok hx]
  exact ⟨f a, rfl, hf a hr, (List.append_nil _).trans he⟩

theorem Does.ask {x : Attempt α} {y : Logged β} (h : Does R x y) (n : Located) :
    Does R (ask n >>= fun _ => x) y := by
  obtain ⟨a, hx, hr, he⟩ := h
  exact ⟨a, hx, hr, he⟩

theorem Does.note {x : Attempt γ} {z : Logged δ} (h : Does S x z) (y : Logged Unit) :
    Does S (ofLogged y >>= fun _ => x) (y >>= fun _ => z) :=
  (does_ofLogged y).bind fun _ _ => h

theorem Does.rescue {x : Attempt α} {y : Logged β} (h : Does R x y)
    (handle : Fault → Option (Attempt α)) : Does R (x.rescue handle) y := by
  obtain ⟨a, hx, hr, he⟩ := h
  rw [rescue_of_ok hx]
  exact ⟨a, hx, hr, he⟩

theorem does_joinEach {f : γ → Attempt (List α)} {g : γ → Logged (List α)} {items : List γ}
    (h : ∀ c, Does Eq (f c) (g c)) : Does Eq (joinEach f items) (joinEach g items) := by
  induction items with
  | nil => exact does_pure rfl
  | cons c items ih =>
    refine (h c).bind fun found hf => ih.bind fun more hm => ?_
    subst hf hm
    exact does_pure rfl

def gatherFrom (f : Located → Attempt (List α)) : List Visit → Attempt (List α)
  | [] => pure []
  | .leave n :: stack => do
    let found ← f n
    let more ← gatherFrom f stack
    return found ++ more
  | .enter n :: stack => do
    ask n
    gatherFrom f (n.children.map .enter ++ .leave n :: stack)
termination_by stack => Visit.total stack
decreasing_by
  · simp [Visit.total, Visit.weight]
  · exact Visit.total_expand n stack

def gather (f : Located → Attempt (List α)) (n : Located) : Attempt (List α) :=
  gatherFrom f [.enter n]

/-- The loop over the stack does what is expected of one call after the other in post-order. -/
theorem does_gatherFrom {f : Located → Attempt (List α)} {g : Located → Logged (List α)}
    (h : ∀ n, Does Eq (f n) (g n)) (stack : List Visit) :
    Does Eq (gatherFrom f stack) (Tree.gatherFrom g stack) := by
  induction stack using gatherFrom.induct with
  | case1 =>
    rw [gatherFrom, Tree.gatherFrom]
    exact does_pure rfl
  | case2 n stack ih =>
    rw [gatherFrom, Tree.gatherFrom]
    refine (h n).bind fun found hf => ih.bind fun more hm => ?_
    subst hf hm
    exact does_pure rfl
  | case3 n stack ih =>
    rw [gatherFrom, Tree.gatherFrom]
    exact ih.ask n

end Attempt

end SyntaxQuery.Query
