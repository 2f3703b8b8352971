import SyntaxQuery.Grammar.Cache

namespace SyntaxQuery

namespace Table

variable {α : Type}

theorem length_put {name : String} {table : Table α} (h : table.find? name = none) (entry : α) :
    (table.put name entry).length = table.length + 1 := by
  induction table with
  | nil => rfl
  | cons head rest ih =>
    obtain ⟨key, value⟩ := head
    by_cases hk : key = name
    · simp [find?, hk] at h
    · rw [find?, if_neg hk] at h
      rw [put, if_neg hk, List.length_cons, List.length_cons, ih h]

end Table

namespace Grammar

def Packages.provides (packages : Packages) (key : String) : Bool :=
  (packages (locate key).package).any fun has => has (locate key).factory

inductive Misses (packages : Packages) (name : String) : Missing → Prop where
  | package (h : packages (locate (keyOf name)).package = none) :
      Misses packages name (.noPackage name (locate (keyOf name)).package)
  | factory {has : String → Bool} (h : packages (locate (keyOf name)).package = some has)
      (hf : has (locate (keyOf name)).factory = false) :
      Misses packages name (.noFactory (locate (keyOf name)))

theorem Misses.not_provides {packages : Packages} {name : String} {e : Missing}
    (h : Misses packages name e) : packages.provides (keyOf name) = false := by
  cases h with
  | package h => rw [Packages.provides, h, Option.any_none]
  | factory h hf => rw [Packages.provides, h, Option.any_some, hf]

namespace Cache

variable {packages : Packages} {cache : Cache} {name key : String} {language : Language}

theorem make_cases (packages : Packages) (name : String) (cache : Cache) :
    (∃ e, Misses packages name e ∧ cache.make packages name = .error e) ∨
      ∃ language, packages.provides (keyOf name) = true ∧
        language.serial = cache.loaded.length ∧ cache.make packages name = .ok language := by
  rw [make]
  cases hp : packages (locate (keyOf name)).package with
  | none => exact .inl ⟨_, .package hp, rfl⟩
  | some has =>
    cases hf : has (locate (keyOf name)).factory with
    | false => exact .inl ⟨_, .factory hp hf, if_neg (by rw [hf]; exact Bool.false_ne_true)⟩
    | true =>
      have hv : packages.provides (keyOf name) = true := by
        rw [Packages.provides, hp, Option.any_some, hf]
      exact .inr ⟨_, hv, rfl, if_pos hf⟩

/-- A load finds its language, or misses something, or makes the language. What it does not find it
imports. -/
theorem load_cases (packages : Packages) (cache : Cache) (name : String) :
    let imports := cache.imports ++ [(locate (keyOf name)).package]
    (∃ language, cache.loaded.find? (keyOf name) = some language ∧
      (cache.load packages name).value = (.ok language, cache)) ∨
    cache.loaded.find? (keyOf name) = none ∧
      ((∃ e, Misses packages name e ∧
        (cache.load packages name).value = (.error e, ⟨cache.loaded, imports⟩)) ∨
      ∃ language, packages.provides (keyOf name) = true ∧
        language.serial = cache.loaded.length ∧
        (cache.load packages name).value =
          (.ok language, ⟨cache.loaded.put (keyOf name) language, imports⟩)) := by
  rw [load]
  cases hk : cache.loaded.find? (keyOf name) with
  | some language => exact .inl ⟨language, rfl, rfl⟩
  | none =>
    refine .inr ⟨rfl, ?_⟩
    obtain ⟨e, he, hm⟩ | ⟨language, hp, hs, hm⟩ := make_cases packages name cache
    · rw [hm]
      exact .inl ⟨e, he, rfl⟩
    · rw [hm]
      exact .inr ⟨language, hp, hs, rfl⟩

theorem load_found (h : cache.loaded.find? (keyOf name) = some language) :
    (cache.load packages name).value = (.ok language, cache) := by
  rw [load, h]
  rfl

theorem find?_of_load (h : (cache.load packages name).value.1 = .ok language) :
    (cache.load packages name).value.2.loaded.find? (keyOf name) = some language := by
  obtain ⟨found, hf, hv⟩ | ⟨-, ⟨e, -, hv⟩ | ⟨made, -, -, hv⟩⟩ := load_cases packages cache name
  · rw [hv] at h ⊢
    cases h
    exact hf
  · rw [hv] at h
    cases h
  · rw [hv] at h ⊢
    cases h
    exact Table.find?_put_self _ _ _

theorem find?_load_of_ne (h : keyOf name ≠ key) :
    (cache.load packages name).value.2.loaded.find? key = cache.loaded.find? key := by
  obtain ⟨found, -, hv⟩ | ⟨-, ⟨e, -, hv⟩ | ⟨made, -, -, hv⟩⟩ := load_cases packages cache name
  · rw [hv]
  · rw [hv]
  · rw [hv]
    exact Table.find?_put_of_ne h _ _

theorem find?_load (h : cache.loaded.find? key = some language) (packages : Packages)
    (name : String) : (cache.load packages name).value.2.loaded.find? key = some language := by
  by_cases hk : keyOf name = key
  · subst hk
    rw [load_found h]
    exact h
  · rw [find?_load_of_ne hk]
    exact h

theorem load_ok_iff : (∃ language, (cache.load packages name).value.1 = .ok language) ↔
    cache.loaded.has (keyOf name) = true ∨ packages.provides (keyOf name) = true := by
  rw [Table.has]
  obtain ⟨found, hf, hv⟩ | ⟨hn, ⟨e, he, hv⟩ | ⟨made, hp, -, hv⟩⟩ := load_cases packages cache name
  · rw [hv, hf]
    exact ⟨fun _ => .inl rfl, fun _ => ⟨found, rfl⟩⟩
  · rw [hv, hn, he.not_provides]
    exact ⟨nofun, nofun⟩
  · rw [hv, hp]
    exact ⟨fun _ => .inr rfl, fun _ => ⟨made, rfl⟩⟩

theorem misses_of_load {e : Missing} (h : (cache.load packages name).value.1 = .error e) :
    cache.loaded.find? (keyOf name) = none ∧ Misses packages name e ∧
      (cache.load packages name).value.2.loaded = cache.loaded := by
  obtain ⟨found, -, hv⟩ | ⟨hn, ⟨e', he, hv⟩ | ⟨made, -, -, hv⟩⟩ := load_cases packages cache name
  · rw [hv] at h
    cases h
  · rw [hv] at h ⊢
    cases h
    exact ⟨hn, he, rfl⟩
  · rw [hv] at h
    cases h

theorem imports_load (packages : Packages) (cache : Cache) (name : String) :
    (cache.load packages name).value.2.imports = cache.imports ++
      if cache.loaded.has (keyOf name) then [] else [(locate (keyOf name)).package] := by
  rw [Table.has]
  obtain ⟨found, hf, hv⟩ | ⟨hn, ⟨e, -, hv⟩ | ⟨made, -, -, hv⟩⟩ := load_cases packages cache name
  · rw [hv, hf]
    exact (List.append_nil _).symm
  · rw [hv, hn]
    rfl
  · rw [hv, hn]
    rfl

theorem has_load (packages : Packages) (cache : Cache) (name key : String) :
    (cache.load packages name).value.2.loaded.has key =
      (cache.loaded.has key || keyOf name == key && packages.provides key) := by
  by_cases hk : keyOf name = key
  · subst hk
    rw [beq_self_eq_true, Bool.true_and]
    obtain ⟨found, hf, hv⟩ | ⟨hn, ⟨e, he, hv⟩ | ⟨made, hp, -, hv⟩⟩ := load_cases packages cache name
    · rw [hv, Table.has, hf]
      rfl
    · rw [hv, he.not_provides, Bool.or_false]
    · rw [hv, hp, Bool.or_true, Table.has, Table.find?_put_self]
      rfl
  · rw [beq_false_of_ne hk, Bool.false_and, Bool.or_false, Table.has, Table.has, find?_load_of_ne hk]

/-- The languages that are kept have serial numbers below that of the next one, and each has its own. -/
structure IsNumbered (cache : Cache) : Prop where
  below : ∀ key language, cache.loaded.find? key = some language →
    language.serial < cache.loaded.length
  apart : ∀ key key' language language', cache.loaded.find? key = some language →
    cache.loaded.find? key' = some language' → language.serial = language'.serial → key = key'

theorem isNumbered_empty : empty.IsNumbered :=
  ⟨nofun, nofun⟩

theorem IsNumbered.put (h : cache.IsNumbered) (hn : cache.loaded.find? key = none)
    (hs : language.serial = cache.loaded.length) (imports : List String) :
    IsNumbered ⟨cache.loaded.put key language, imports⟩ := by
  -- an entry of the longer table is the new one or an old one, which has a lower number
  have hc : ∀ other found, (cache.loaded.put key language).find? other = some found →
      (other = key ∧ found = language) ∨
        (cache.loaded.find? other = some found ∧ found.serial < language.serial) := by
    intro other found hf
    by_cases hk : key = other
    · subst hk
      rw [Table.find?_put_self] at hf
      exact .inl ⟨rfl, (Option.some.inj hf).symm⟩
    · rw [Table.find?_put_of_ne hk] at hf
      exact .inr ⟨hf, hs ▸ h.below other found hf⟩
  constructor
  · intro other found hf
    show found.serial < (cache.loaded.put key language).length
    rw [Table.length_put hn]
    obtain ⟨-, rfl⟩ | ⟨-, ho⟩ := hc other found hf
    · omega
    · omega
  · intro other other' found found' hf hf' he
    obtain ⟨rfl, rfl⟩ | ⟨ho, hb⟩ := hc other found hf
    · obtain ⟨rfl, -⟩ | ⟨-, hb'⟩ := hc other' found' hf'
      · rfl
      · omega
    · obtain ⟨rfl, rfl⟩ | ⟨ho', -⟩ := hc other' found' hf'
      · omega
      · exact h.apart other other' found found' ho ho' he

theorem IsNumbered.load (h : cache.IsNumbered) (packages : Packages) (name : String) :
    (cache.load packages name).value.2.IsNumbered := by
  obtain ⟨found, -, hv⟩ | ⟨hn, ⟨e, -, hv⟩ | ⟨made, -, hs, hv⟩⟩ := load_cases packages cache name
  · rw [hv]
    exact h
  · rw [hv]
    exact ⟨h.below, h.apart⟩
  · rw [hv]
    exact h.put hn hs _

end Cache

end Grammar

end SyntaxQuery
