namespace SyntaxQuery.Journal

inductive Level where
  | debug
  | info
  | warning
  | error
  | critical
deriving DecidableEq, Inhabited

namespace Level

def rank : Level → Nat
  | debug => 10
  | info => 20
  | warning => 30
  | error => 40
  | critical => 50

def name : Level → String
  | debug => "DEBUG"
  | info => "INFO"
  | warning => "WARNING"
  | error => "ERROR"
  | critical => "CRITICAL"

def reaches (level least : Level) : Bool :=
  least.rank ≤ level.rank

def lower (a b : Level) : Level :=
  if a.rank ≤ b.rank then a else b

end Level

structure Entry where
  level : Level
  source : String
  message : String
deriving DecidableEq, Inhabited

/-- A value, and the entries that were written on the way to it. -/
structure Logged (α : Type) where
  value : α
  entries : List Entry

namespace Logged

variable {α β : Type}

instance : Monad Logged where
  pure a := ⟨a, []⟩
  bind x f :=
    let y := f x.value
    ⟨y.value, x.entries ++ y.entries⟩

@[simp] theorem value_pure (a : α) : (pure a : Logged α).value = a := rfl

@[simp] theorem entries_pure (a : α) : (pure a : Logged α).entries = [] := rfl

@[simp] theorem value_bind (x : Logged α) (f : α → Logged β) :
    (x >>= f).value = (f x.value).value := rfl

@[simp] theorem entries_bind (x : Logged α) (f : α → Logged β) :
    (x >>= f).entries = x.entries ++ (f x.value).entries := rfl

theorem eq_of {x y : Logged α} (hv : x.value = y.value) (he : x.entries = y.entries) : x = y := by
  cases x
  cases y
  simp_all

instance : LawfulMonad Logged :=
  LawfulMonad.mk' _
    (fun x => eq_of rfl (by simp [Functor.map]))
    (fun _ _ => eq_of rfl (by simp))
    (fun _ _ _ => eq_of rfl (by simp))

def write (source : String) (level : Level) (message : String) : Logged Unit :=
  ⟨(), [⟨level, source, message⟩]⟩

@[inline] def writeIf (condition : Bool) (source : String) (level : Level) (message : String) :
    Logged Unit :=
  if condition then write source level message else pure ()

def atLeast (least : Level) (entries : List Entry) : List Entry :=
  entries.filter (·.level.reaches least)

end Logged

end SyntaxQuery.Journal
