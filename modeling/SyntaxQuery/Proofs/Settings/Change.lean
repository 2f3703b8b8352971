import SyntaxQuery.Proofs.Settings.Overlay
import SyntaxQuery.Proofs.Settings.Reading

namespace SyntaxQuery.Settings

open SyntaxQuery.Json

inductive Change where
  | set (key : String) (value : Json)
  | remove (key : String)
  | load
  | save

structure Situation where
  disk : Disk
  store : Store

def Situation.opened (disk : Disk) (path : Option String) : Situation :=
  ⟨disk, (openStore disk path).value⟩

/-- The situation after a change. When saving fails, some folders may have been made, and a part of
the file written. -/
def Change.apply (s : Situation) : Change → Situation
  | set key value => { s with store := ⟨s.store.path, Settings.set key value s.store.values⟩ }
  | remove key => { s with store := ⟨s.store.path, (Settings.remove key s.store.values).2⟩ }
  | load => { s with store := ⟨s.store.path, (Settings.load s.disk s.store.path).value⟩ }
  | save => { s with disk := (s.store.save s.disk).value.2 }

def Situation.after (s : Situation) (changes : List Change) : Situation :=
  changes.foldl Change.apply s

def Change.IsProper : Change → Prop
  | set _ value => Proper value
  | _ => True

variable {settings : Section} {value : Json}

theorem proper_defaults : Proper (.object defaults) := by
  refine .object (by decide) ?_
  simp only [defaults, List.forall_mem_cons]
  refine ⟨?_, ?_, ?_, ?_, nofun⟩ <;> refine .object (by decide) ?_ <;>
    simp only [List.forall_mem_cons]
  · exact ⟨.truth _, nofun⟩
  · exact ⟨.text _, nofun⟩
  · exact ⟨.text _, nofun⟩
  · exact ⟨.text _, .text _, .null, nofun⟩

theorem proper_sectionAt (h : Proper (.object settings)) (name : String) :
    Proper (.object (sectionAt name settings)) := by
  by_cases hf : ∃ fields, settings.find? name = some (.object fields)
  · obtain ⟨fields, hf⟩ := hf
    rw [sectionAt_of_object hf]
    exact h.find? hf
  · rw [sectionAt_of_no_object (not_exists.mp hf)]
    exact .object List.nodup_nil nofun

theorem proper_setAt (h : Proper (.object settings)) (hv : Proper value) (names : List String) :
    Proper (.object (setAt value names settings)) := by
  induction names generalizing settings with
  | nil => exact h
  | cons name rest ih =>
    by_cases hr : rest = []
    · subst hr
      exact h.put hv name
    · rw [setAt_cons value name hr]
      exact h.put (ih (proper_sectionAt h name)) name

theorem proper_removeAt (h : Proper (.object settings)) {names : List String} {left : Section}
    (hr : removeAt names settings = some left) : Proper (.object left) := by
  induction names generalizing settings left with
  | nil => cases hr
  | cons name rest ih =>
    by_cases hn : rest = []
    · subst hn
      rw [removeAt] at hr
      split at hr
      · obtain rfl := Option.some.inj hr
        exact h.drop name
      · cases hr
    · rw [removeAt_cons name hn] at hr
      obtain ⟨inner, hi, rfl⟩ := Option.map_eq_some_iff.mp hr
      exact h.put (ih (proper_sectionAt h name) hi) name

theorem proper_remove (h : Proper (.object settings)) (key : String) :
    Proper (.object (remove key settings).2) := by
  rw [remove]
  split
  · exact proper_removeAt h ‹_›
  · exact h

/-- What holds of a section and of its values, and goes on to hold when such a value is put in. -/
structure IsKept (P : Json → Prop) : Prop where
  entries {fields : List (String × Json)} (h : P (.object fields)) : ∀ entry ∈ fields, P entry.2
  put {fields : List (String × Json)} {v : Json} (h : P (.object fields)) (hv : P v)
    (name : String) : P (.object (Table.put name v fields))

theorem IsKept.overlay {P : Json → Prop} (hk : IsKept P) {fields : List (String × Json)}
    (hp : Proper (.object fields)) (h : P (.object fields)) {base : Section}
    (hb : P (.object base)) : P (.object (overlay base fields)) := by
  generalize hv : Json.object fields = v at hp
  induction hp generalizing fields base with
  | @object entries hd he ih =>
    cases hv
    clear hd he
    have he := hk.entries h
    clear h
    -- the outer induction is for the sections inside, this one for the entries still to come
    induction entries generalizing base with
    | nil => exact hb
    | cons entry rest ihr =>
      obtain ⟨name, value⟩ := entry
      rw [List.forall_mem_cons] at he
      rw [Settings.overlay]
      refine ihr (fun entry h => ih entry (List.mem_cons_of_mem _ h)) (hk.put hb ?_ name) he.2
      cases value with
      | object inner =>
        cases hf : base.find? name with
        | none => exact he.1
        | some old =>
          cases old with
          | object b =>
            exact ih _ List.mem_cons_self he.1 (hk.entries hb _ (Table.mem_of_find? hf)) rfl
          | _ => exact he.1
      | _ => exact he.1
  | _ => cases hv

theorem isKept_proper : IsKept Proper :=
  ⟨Proper.entries, Proper.put⟩

theorem proper_overlay {fields : List (String × Json)} (hp : Proper (.object fields))
    {base : Section} (hb : Proper (.object base)) : Proper (.object (overlay base fields)) :=
  isKept_proper.overlay hp hp hb

theorem isKept_short : IsKept (·.isShort = true) where
  entries h := by
    rw [isShort, haveShort_iff] at h
    exact h
  put h hv name := by
    rw [isShort, haveShort_iff] at h ⊢
    intro entry he
    obtain rfl | he := Table.mem_put he
    · exact hv
    · exact h entry he

theorem proper_load (disk : Disk) (path : String) : Proper (.object (load disk path).value) := by
  by_cases hk : ∃ fields, Keeps disk path fields
  · obtain ⟨fields, hk⟩ := hk
    rw [value_load_of_keeps hk]
    exact proper_overlay hk.proper proper_defaults
  · rw [value_load_of_not_keeps (not_exists.mp hk)]
    exact proper_defaults

theorem home_save (store : Store) (disk : Disk) : (store.save disk).value.2.home = disk.home := by
  have hr := Disk.home_makeRoom disk store.path
  rw [Store.save]
  split <;> rename_i hm <;> rw [hm] at hr
  · exact hr
  · split
    · exact hr
    · have hh := (Disk.home_of_write ‹_›).trans hr
      split <;> exact hh

/-- What no change to settings alters: where their file is, and that no section has a name twice. -/
structure Situation.Steady (s : Situation) (home path : String) : Prop where
  home : s.disk.home = home
  path : s.store.path = path
  proper : Proper (.object s.store.values)

theorem steady_opened (disk : Disk) (path : Option String) :
    (Situation.opened disk path).Steady disk.home (pathFrom disk path) :=
  ⟨rfl, rfl, proper_load disk _⟩

theorem steady_apply {s : Situation} {home path : String} (h : s.Steady home path) {change : Change}
    (hc : change.IsProper) : (change.apply s).Steady home path := by
  cases change with
  | set key value => exact ⟨h.home, h.path, proper_setAt h.proper hc _⟩
  | remove key => exact ⟨h.home, h.path, proper_remove h.proper key⟩
  | load => exact ⟨h.home, h.path, proper_load s.disk s.store.path⟩
  | save =>
    constructor
    · rw [Change.apply, home_save, h.home]
    · rw [Change.apply, h.path]
    · rw [Change.apply]
      exact h.proper

theorem steady_after {s : Situation} {home path : String} (h : s.Steady home path)
    {changes : List Change} (hc : ∀ change ∈ changes, change.IsProper) :
    (s.after changes).Steady home path := by
  induction changes generalizing s with
  | nil => exact h
  | cons change rest ih =>
    rw [List.forall_mem_cons] at hc
    exact ih (steady_apply h hc.1) hc.2

end SyntaxQuery.Settings
