import SyntaxQuery.Journal.Basic
import SyntaxQuery.Proofs.Tree.PostOrder

namespace SyntaxQuery.Journal

open SyntaxQuery.Tree

variable {α β : Type} {P : Entry → Prop}

def Logged.Writes (P : Entry → Prop) (x : Logged α) : Prop :=
  ∀ e ∈ x.entries, P e

namespace Logged

theorem writes_pure (a : α) : Writes P (pure a) := nofun

theorem writes_write {source : String} {level : Level} {message : String}
    (h : P ⟨level, source, message⟩) : Writes P (write source level message) :=
  List.forall_mem_singleton.mpr h

theorem writes_writeIf {condition : Bool} {source : String} {level : Level} {message : String}
    (h : P ⟨level, source, message⟩) : Writes P (writeIf condition source level message) := by
  cases condition with
  | false => exact writes_pure ()
  | true => exact writes_write h

theorem Writes.bind {x : Logged α} {f : α → Logged β} (hx : Writes P x)
    (hf : Writes P (f x.value)) : Writes P (x >>= f) := by
  intro e he
  rw [entries_bind] at he
  exact (List.mem_append.mp he).elim (hx e) (hf e)

theorem writes_joinEach {f : α → Logged (List β)} {items : List α}
    (h : ∀ a ∈ items, Writes P (f a)) : Writes P (joinEach f items) := by
  induction items with
  | nil => exact writes_pure []
  | cons a items ih =>
    rw [List.forall_mem_cons] at h
    exact h.1.bind ((ih h.2).bind (writes_pure _))

theorem writes_gather {f : Located → Logged (List β)} {n : Located}
    (h : ∀ k, n.Holds k → Writes P (f k)) : Writes P (gather f n) := by
  rw [gather_eq]
  exact writes_joinEach fun k hk => h k (Located.mem_postOrder.mp hk)

def warnings (x : Logged α) : List Entry :=
  x.entries.filter (·.level = .warning)

theorem warnings_pure (a : α) : (pure a : Logged α).warnings = [] := rfl

theorem warnings_bind (x : Logged α) (f : α → Logged β) :
    (x >>= f).warnings = x.warnings ++ (f x.value).warnings :=
  List.filter_append _ _

theorem warnings_bind_pure (x : Logged α) (f : α → β) :
    (x >>= fun a => pure (f a)).warnings = x.warnings := by
  rw [warnings_bind, warnings_pure, List.append_nil]

theorem warnings_writeIf (condition : Bool) (source message : String) :
    (writeIf condition source .debug message).warnings = [] := by
  cases condition <;> rfl

theorem warnings_joinEach (f : α → Logged (List β)) (items : List α) :
    (joinEach f items).warnings = items.flatMap fun a => (f a).warnings := by
  induction items with
  | nil => rfl
  | cons a items ih => rw [joinEach, warnings_bind, warnings_bind_pure, ih, List.flatMap_cons]

theorem warnings_gather (f : Located → Logged (List β)) (n : Located) :
    (gather f n).warnings = n.postOrder.flatMap fun k => (f k).warnings := by
  rw [gather_eq, warnings_joinEach]

end Logged

/-- The entries of a run, and the same ones with more between them that are all for debugging. -/
inductive Annotates : List Entry → List Entry → Prop where
  | nil : Annotates [] []
  | kept (e : Entry) {quiet full : List Entry} (h : Annotates quiet full) :
      Annotates (e :: quiet) (e :: full)
  | added {e : Entry} (he : e.level = .debug) {quiet full : List Entry} (h : Annotates quiet full) :
      Annotates quiet (e :: full)

namespace Annotates

variable {quiet full quiet' full' : List Entry}

theorem refl (entries : List Entry) : Annotates entries entries := by
  induction entries with
  | nil => exact .nil
  | cons e entries ih => exact .kept e ih

theorem append (h : Annotates quiet full) (h' : Annotates quiet' full') :
    Annotates (quiet ++ quiet') (full ++ full') := by
  induction h with
  | nil => exact h'
  | kept e _ ih => exact .kept e ih
  | added he _ ih => exact .added he ih

theorem atLeast {least : Level} (hl : Level.debug.reaches least = false) (h : Annotates quiet full) :
    Logged.atLeast least full = Logged.atLeast least quiet := by
  induction h with
  | nil => rfl
  | kept e _ ih =>
    rw [Logged.atLeast, Logged.atLeast, List.filter_cons, List.filter_cons]
    exact congrArg (fun rest => if e.level.reaches least = true then e :: rest else rest) ih
  | added he _ ih =>
    rw [Logged.atLeast, List.filter_cons_of_neg (by rw [he, hl]; exact Bool.false_ne_true)]
    exact ih

end Annotates

namespace Logged

/-- The second of two computations gives the same as the first one and writes notes in addition. -/
def Echoes (quiet full : Logged α) : Prop :=
  full.value = quiet.value ∧ Annotates quiet.entries full.entries

theorem Echoes.refl (x : Logged α) : Echoes x x :=
  ⟨rfl, .refl _⟩

theorem echoes_writeIf (source message : String) :
    Echoes (writeIf false source .debug message) (writeIf true source .debug message) :=
  ⟨rfl, .added rfl .nil⟩

theorem Echoes.bind {x y : Logged α} {f g : α → Logged β} (h : Echoes x y)
    (hf : ∀ a, Echoes (f a) (g a)) : Echoes (x >>= f) (y >>= g) := by
  obtain ⟨hv, he⟩ := h
  obtain ⟨hv', he'⟩ := hf x.value
  rw [Echoes, value_bind, value_bind, entries_bind, entries_bind, hv]
  exact ⟨hv', he.append he'⟩

theorem echoes_joinEach {f g : α → Logged (List β)} (h : ∀ a, Echoes (f a) (g a))
    (items : List α) : Echoes (joinEach f items) (joinEach g items) := by
  induction items with
  | nil => exact .refl _
  | cons a items ih => exact (h a).bind fun _ => ih.bind fun _ => .refl _

theorem echoes_gather {f g : Located → Logged (List β)} (h : ∀ k, Echoes (f k) (g k))
    (n : Located) : Echoes (gather f n) (gather g n) := by
  rw [gather_eq, gather_eq]
  exact echoes_joinEach h _

end Logged

end SyntaxQuery.Journal
