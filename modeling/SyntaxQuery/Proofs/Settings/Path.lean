import SyntaxQuery.Settings.Basic

namespace SyntaxQuery.Settings

/-- Two paths part: after what they share, each goes on by a name of its own. -/
inductive Apart : List String → List String → Prop where
  | here {a b : String} (h : a ≠ b) (p q : List String) : Apart (a :: p) (b :: q)
  | later {p q : List String} (a : String) (h : Apart p q) : Apart (a :: p) (a :: q)

theorem Apart.left_ne_nil {p q : List String} (h : Apart p q) : p ≠ [] := by
  cases h <;> exact List.cons_ne_nil _ _

theorem Apart.right_ne_nil {p q : List String} (h : Apart p q) : q ≠ [] := by
  cases h <;> exact List.cons_ne_nil _ _

theorem apart_of_unrelated {p q : List String} (hp : ¬ p <+: q) (hq : ¬ q <+: p) : Apart p q := by
  induction p generalizing q with
  | nil => exact absurd ⟨q, rfl⟩ hp
  | cons a p ih =>
    cases q with
    | nil => exact absurd ⟨a :: p, rfl⟩ hq
    | cons b q =>
      by_cases h : a = b
      · subst h
        rw [List.prefix_cons_inj] at hp hq
        exact .later a (ih hp hq)
      · exact .here h p q

theorem pieces_ne_nil (separator : Char) (cs : List Char) : Text.pieces separator cs ≠ [] := by
  cases cs with
  | nil => exact List.cons_ne_nil _ _
  | cons c cs =>
    rw [Text.pieces]
    split
    · exact List.cons_ne_nil _ _
    split <;> exact List.cons_ne_nil _ _

theorem keyParts_ne_nil (key : String) : keyParts key ≠ [] := by
  intro h
  exact pieces_ne_nil _ _ (List.map_eq_nil_iff.mp h)

theorem sectionAt_of_object {name : String} {settings : Section} {fields : List (String × Json)}
    (h : settings.find? name = some (.object fields)) : sectionAt name settings = fields := by
  rw [sectionAt, h]
  rfl

theorem sectionAt_of_no_object {name : String} {settings : Section}
    (h : ∀ fields, settings.find? name ≠ some (.object fields)) : sectionAt name settings = [] := by
  rw [sectionAt]
  cases hf : settings.find? name with
  | none => rfl
  | some v =>
    cases v with
    | object fields => exact absurd hf (h fields)
    | _ => rfl

theorem sectionAt_put_self (name : String) (inner settings : Section) :
    sectionAt name (settings.put name (.object inner)) = inner :=
  sectionAt_of_object (Table.find?_put_self name _ settings)

theorem getAt_empty (names : List String) : getAt names [] = none := by
  cases names with
  | nil => rfl
  | cons name rest => cases rest <;> rfl

theorem removeAt_empty (names : List String) : removeAt names [] = none := by
  cases names with
  | nil => rfl
  | cons name rest => cases rest <;> rfl

theorem getAt_cons (name : String) {rest : List String} (h : rest ≠ []) (settings : Section) :
    getAt (name :: rest) settings = getAt rest (sectionAt name settings) := by
  rw [getAt.eq_3 _ _ _ h]
  split
  · rw [sectionAt_of_object ‹_›]
  · rename_i hn
    rw [sectionAt_of_no_object hn, getAt_empty]

theorem setAt_cons (value : Json) (name : String) {rest : List String} (h : rest ≠ [])
    (settings : Section) :
    setAt value (name :: rest) settings =
      settings.put name (.object (setAt value rest (sectionAt name settings))) :=
  setAt.eq_3 _ _ _ _ h

theorem removeAt_cons (name : String) {rest : List String} (h : rest ≠ []) (settings : Section) :
    removeAt (name :: rest) settings =
      (removeAt rest (sectionAt name settings)).map fun inner => settings.put name (.object inner) := by
  rw [removeAt.eq_3 _ _ _ h]
  split
  · rw [sectionAt_of_object ‹_›]
  · rename_i hn
    rw [sectionAt_of_no_object hn, removeAt_empty, Option.map_none]

def within (names : List String) (value : Json) : Option Json :=
  value.fields?.bind (getAt names)

theorem getAt_append {names more : List String} (hn : names ≠ []) (hm : more ≠ [])
    (settings : Section) :
    getAt (names ++ more) settings = (getAt names settings).bind (within more) := by
  induction names generalizing settings with
  | nil => exact absurd rfl hn
  | cons name rest ih =>
    by_cases hr : rest = []
    · subst hr
      rw [List.singleton_append, getAt_cons name hm, getAt, sectionAt]
      cases settings.find? name with
      | none => exact getAt_empty more
      | some v => cases v <;> first | rfl | exact getAt_empty more
    · rw [List.cons_append, getAt_cons name (List.append_ne_nil_of_left_ne_nil hr more),
        getAt_cons name hr, ih hr]

theorem getAt_put_of_ne {a b : String} (h : a ≠ b) (q : List String) (entry : Json)
    (settings : Section) : getAt (b :: q) (settings.put a entry) = getAt (b :: q) settings := by
  by_cases hq : q = []
  · subst hq
    exact Table.find?_put_of_ne h entry settings
  · rw [getAt_cons b hq, getAt_cons b hq, sectionAt, Table.find?_put_of_ne h, sectionAt]

theorem getAt_drop_of_ne {a b : String} (h : a ≠ b) (q : List String) (settings : Section) :
    getAt (b :: q) (settings.drop a) = getAt (b :: q) settings := by
  by_cases hq : q = []
  · subst hq
    exact Table.find?_drop_of_ne h settings
  · rw [getAt_cons b hq, getAt_cons b hq, sectionAt, Table.find?_drop_of_ne h, sectionAt]

theorem setAt_eq_put (value : Json) (name : String) (rest : List String) (settings : Section) :
    ∃ entry, setAt value (name :: rest) settings = settings.put name entry := by
  by_cases h : rest = []
  · subst h
    exact ⟨value, rfl⟩
  · exact ⟨_, setAt_cons value name h settings⟩

theorem getAt_setAt_self {names : List String} (hn : names ≠ []) (value : Json)
    (settings : Section) : getAt names (setAt value names settings) = some value := by
  induction names generalizing settings with
  | nil => exact absurd rfl hn
  | cons name rest ih =>
    by_cases hr : rest = []
    · subst hr
      exact Table.find?_put_self name value settings
    · rw [getAt_cons name hr, setAt_cons value name hr, sectionAt_put_self, ih hr]

/-- A value that is put at one path is not seen at a path that parts from it, whatever had to make
room for it on the way. -/
theorem getAt_setAt_of_apart {names other : List String} (h : Apart names other) (value : Json)
    (settings : Section) : getAt other (setAt value names settings) = getAt other settings := by
  induction h generalizing settings with
  | @here a b hab p q =>
    obtain ⟨entry, he⟩ := setAt_eq_put value a p settings
    rw [he, getAt_put_of_ne hab]
  | later a hpq ih =>
    rw [getAt_cons a hpq.right_ne_nil, getAt_cons a hpq.right_ne_nil,
      setAt_cons value a hpq.left_ne_nil, sectionAt_put_self, ih]

theorem getAt_setAt_append {names more : List String} (hn : names ≠ []) (hm : more ≠ [])
    {settings : Section} {fields : List (String × Json)}
    (h : getAt names settings = some (.object fields)) (value : Json) :
    getAt names (setAt value (names ++ more) settings) =
      some (.object (setAt value more fields)) := by
  induction names generalizing settings with
  | nil => exact absurd rfl hn
  | cons name rest ih =>
    by_cases hr : rest = []
    · subst hr
      rw [List.singleton_append, setAt_cons value name hm, getAt, Table.find?_put_self,
        sectionAt_of_object h]
    · rw [getAt_cons name hr] at h ⊢
      rw [List.cons_append, setAt_cons value name (List.append_ne_nil_of_left_ne_nil hr more),
        sectionAt_put_self, ih hr h]

theorem isSome_removeAt (names : List String) (settings : Section) :
    (removeAt names settings).isSome = (getAt names settings).isSome := by
  induction names generalizing settings with
  | nil => rfl
  | cons name rest ih =>
    by_cases hr : rest = []
    · subst hr
      rw [removeAt, getAt, Table.has]
      split <;> simp_all
    · rw [removeAt_cons name hr, getAt_cons name hr, Option.isSome_map, ih]

theorem getAt_removeAt_self {names : List String} {settings left : Section}
    (h : removeAt names settings = some left) : getAt names left = none := by
  induction names generalizing settings left with
  | nil => rfl
  | cons name rest ih =>
    by_cases hr : rest = []
    · subst hr
      rw [removeAt] at h
      split at h
      · obtain rfl := Option.some.inj h
        exact Table.find?_drop_self name settings
      · cases h
    · rw [removeAt_cons name hr] at h
      obtain ⟨inner, hi, rfl⟩ := Option.map_eq_some_iff.mp h
      rw [getAt_cons name hr, sectionAt_put_self, ih hi]

theorem getAt_removeAt_of_apart {names other : List String} (ha : Apart names other)
    {settings left : Section} (h : removeAt names settings = some left) :
    getAt other left = getAt other settings := by
  induction ha generalizing settings left with
  | @here a b hab p q =>
    by_cases hp : p = []
    · subst hp
      rw [removeAt] at h
      split at h
      · obtain rfl := Option.some.inj h
        exact getAt_drop_of_ne hab q settings
      · cases h
    · rw [removeAt_cons a hp] at h
      obtain ⟨inner, -, rfl⟩ := Option.map_eq_some_iff.mp h
      exact getAt_put_of_ne hab q _ settings
  | later a hpq ih =>
    rw [removeAt_cons a hpq.left_ne_nil] at h
    obtain ⟨inner, hi, rfl⟩ := Option.map_eq_some_iff.mp h
    rw [getAt_cons a hpq.right_ne_nil, getAt_cons a hpq.right_ne_nil, sectionAt_put_self, ih hi]

theorem find?_setAt_of_ne {name other : String} (h : name ≠ other) (value : Json)
    (rest : List String) (settings : Section) :
    (setAt value (name :: rest) settings).find? other = settings.find? other := by
  obtain ⟨entry, he⟩ := setAt_eq_put value name rest settings
  rw [he, Table.find?_put_of_ne h]

theorem fst_remove (key : String) (settings : Section) :
    (remove key settings).1 = (get? key settings).isSome := by
  rw [get?, ← isSome_removeAt, remove]
  cases removeAt (keyParts key) settings <;> rfl

theorem removeAt_of_remove {key : String} {settings : Section}
    (h : (remove key settings).1 = true) :
    removeAt (keyParts key) settings = some (remove key settings).2 := by
  rw [remove] at h ⊢
  cases hr : removeAt (keyParts key) settings with
  | none => rw [hr] at h; cases h
  | some left => rfl

theorem snd_remove_of_false {key : String} {settings : Section}
    (h : (remove key settings).1 = false) : (remove key settings).2 = settings := by
  rw [remove] at h ⊢
  cases hr : removeAt (keyParts key) settings with
  | none => rfl
  | some left => rw [hr] at h; cases h

/-- Settings are a map over the paths of their keys. A value that is set is found at its key and, as
far as it is a section, below it; a section above it keeps all else that it holds; and nothing changes
at a path that parts from it. Removing tells whether there was a value, null or not; then nothing is
left at its key and below, and again nothing changes where paths part. -/
theorem set_and_remove_follow_paths (settings : Section) (key : String) (value : Json) :
    (∀ other fallback, keyParts other = keyParts key →
      get other fallback (set key value settings) = value) ∧
    (∀ other more fallback, more ≠ [] → keyParts other = keyParts key ++ more →
      get other fallback (set key value settings) = (within more value).getD fallback) ∧
    (∀ other fallback, ¬ keyParts key <+: keyParts other → ¬ keyParts other <+: keyParts key →
      get other fallback (set key value settings) = get other fallback settings) ∧
    (∀ other name more fields, keyParts key = keyParts other ++ name :: more →
      get? other settings = some (.object fields) →
      ∃ fields', get? other (set key value settings) = some (.object fields') ∧
        ∀ name', name ≠ name' → Table.find? fields' name' = Table.find? fields name') ∧
    ((remove key settings).1 = true ↔ ∃ present, get? key settings = some present) ∧
    ((remove key settings).1 = true →
      (∀ other, keyParts key <+: keyParts other → get? other (remove key settings).2 = none) ∧
      ∀ other, ¬ keyParts key <+: keyParts other → ¬ keyParts other <+: keyParts key →
        get? other (remove key settings).2 = get? other settings) ∧
    ((remove key settings).1 = false → (remove key settings).2 = settings) := by
  have hk := keyParts_ne_nil key
  refine ⟨?_, ?_, ?_, ?_, ?_, ?_, snd_remove_of_false⟩
  · intro other fallback he
    rw [get, get?, he, set, getAt_setAt_self hk, Option.getD_some]
  · intro other more fallback hm he
    rw [get, get?, he, set, getAt_append hk hm, getAt_setAt_self hk, Option.bind_some]
  · intro other fallback hl hr
    rw [get, get?, set, getAt_setAt_of_apart (apart_of_unrelated hl hr), get, get?]
  · intro other name more fields he hf
    refine ⟨setAt value (name :: more) fields, ?_, fun name' hn => find?_setAt_of_ne hn _ _ _⟩
    rw [get?, set, he, getAt_setAt_append (keyParts_ne_nil other) (List.cons_ne_nil _ _) hf]
  · rw [fst_remove, Option.isSome_iff_exists]
  · intro h
    have hr := removeAt_of_remove h
    refine ⟨?_, fun other hl hr' => getAt_removeAt_of_apart (apart_of_unrelated hl hr') hr⟩
    rintro other ⟨more, hm⟩
    rw [get?, ← hm]
    by_cases he : more = []
    · rw [he, List.append_nil, getAt_removeAt_self hr]
    · rw [getAt_append hk he, getAt_removeAt_self hr, Option.bind_none]

end SyntaxQuery.Settings
