import SyntaxQuery.Grammar.Cache

namespace SyntaxQuery.Grammar

open SyntaxQuery.Journal

def grammarOf (packages : Packages) (name : String) : Except Missing String :=
  (Cache.empty.make packages name).map Language.pointer

namespace Cache

variable {packages : Packages} {cache : Cache} {name : String}

def IsSound (packages : Packages) (cache : Cache) : Prop :=
  ∀ name language, cache.loaded.find? (keyOf name) = some language →
    grammarOf packages name = .ok language.pointer

theorem isSound_empty (packages : Packages) : empty.IsSound packages := nofun

theorem map_pointer_make (packages : Packages) (name : String) (cache : Cache) :
    (cache.make packages name).map Language.pointer = grammarOf packages name := by
  rw [grammarOf, make, make]
  cases packages (locate (keyOf name)).package with
  | none => rfl
  | some has => cases hl : has (locate (keyOf name)).factory <;> simp [hl, Except.map]

theorem grammarOf_of_key {other pointer : String} (hk : keyOf other = keyOf name)
    (h : grammarOf packages name = .ok pointer) : grammarOf packages other = .ok pointer := by
  rw [grammarOf, make] at h ⊢
  rw [hk]
  cases hp : packages (locate (keyOf name)).package with
  | none => rw [hp] at h; cases h
  | some has =>
    rw [hp] at h
    cases hl : has (locate (keyOf name)).factory with
    | false => simp [hl, Except.map] at h
    | true => simpa [hl] using h

/-- A load gives a language of the grammar of its name, or tells why there is none, whatever was loaded
before; all languages that are kept then still have the grammars of their keys. -/
theorem IsSound.load (h : cache.IsSound packages) (name : String) :
    (cache.load packages name).value.1.map Language.pointer = grammarOf packages name ∧
      (cache.load packages name).value.2.IsSound packages := by
  rw [Cache.load]
  cases hf : cache.loaded.find? (keyOf name) with
  | some language => exact ⟨(h name language hf).symm, h⟩
  | none =>
    have hm := map_pointer_make packages name cache
    cases hk : cache.make packages name with
    | error e =>
      rw [hk] at hm
      exact ⟨hm, h⟩
    | ok language =>
      rw [hk] at hm
      refine ⟨hm, fun other found ho => ?_⟩
      change (cache.loaded.put (keyOf name) language).find? (keyOf other) = some found at ho
      by_cases hn : keyOf other = keyOf name
      · rw [hn, Table.find?_put_self] at ho
        obtain rfl := Option.some.inj ho
        exact grammarOf_of_key hn hm.symm
      · rw [Table.find?_put_of_ne (Ne.symm hn)] at ho
        exact h other found ho

end Cache

end SyntaxQuery.Grammar
