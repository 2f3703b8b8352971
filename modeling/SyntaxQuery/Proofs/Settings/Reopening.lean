import SyntaxQuery.Proofs.Disk.Room
import SyntaxQuery.Proofs.Settings.Change

namespace SyntaxQuery.Settings

open SyntaxQuery.Disk SyntaxQuery.Json

variable {disk disk' : Disk} {store : Store} {path : Option String}

theorem pathFrom_of_home (h : disk'.home = disk.home) (path : Option String) :
    pathFrom disk' path = pathFrom disk path := by
  rw [pathFrom.eq_def, pathFrom.eq_def, h]

theorem save_ok (h : (store.save disk).value = (.ok (), disk')) :
    (Json.object store.values).isShort = true ∧
      ∃ before, disk.makeRoom store.path = (.ok (), before) ∧
        before.write store.path (toBytes store.values) = .ok disk' := by
  rw [Store.save] at h
  split at h
  · cases h
  · rename_i before hm
    split at h
    · cases h
    · rename_i hw
      split at h
      · rename_i hs
        obtain rfl := (Prod.mk.inj h).2
        rw [if_pos hs] at hw
        exact ⟨hs, before, hm, hw⟩
      · cases h

theorem read_of_save (h : (store.save disk).value = (.ok (), disk')) :
    disk'.read store.path = .ok (toBytes store.values) := by
  obtain ⟨-, before, -, hw⟩ := save_ok h
  exact read_of_write hw

theorem value_load_of_save (h : (store.save disk).value = (.ok (), disk'))
    (hp : Proper (.object store.values)) :
    (load disk' store.path).value = overlay defaults store.values :=
  value_load_of_keeps (keeps_of_read (read_of_save h) hp (save_ok h).1)

theorem value_openStore_of_save (h : (store.save disk).value = (.ok (), disk'))
    (hp : Proper (.object store.values)) (hf : pathFrom disk path = store.path) :
    (openStore disk' path).value = ⟨store.path, overlay defaults store.values⟩ := by
  have hh : disk'.home = disk.home := by
    rw [← home_save store disk, h]
  have he : (openStore disk' path).value =
      ⟨pathFrom disk' path, (load disk' (pathFrom disk' path)).value⟩ := rfl
  rw [he, pathFrom_of_home hh, hf, value_load_of_save h hp]

theorem value_save_of_locate (hs : (Json.object store.values).isShort = true) {place : Place}
    {found : Option Item} (hl : disk.locate store.path = .ok (place, found))
    (ha : disk.Admits place found) :
    (store.save disk).value = (.ok (), disk.put place (.file (toBytes store.values))) := by
  rw [Store.save, makeRoom_of_locate hl]
  simp only [hs, if_true, write_of_locate hl ha]
  rfl

/-- Settings as they can be after they were opened with a path on some disk. -/
def Reachable (path : Option String) (s : Situation) : Prop :=
  ∃ disk changes, (∀ change ∈ changes, Change.IsProper change) ∧
    s = (Situation.opened disk path).after changes

theorem Reachable.steady {s : Situation} (h : Reachable path s) :
    s.Steady s.disk.home (pathFrom s.disk path) := by
  obtain ⟨disk, changes, hc, rfl⟩ := h
  have hs := steady_after (steady_opened disk path) hc
  rw [pathFrom_of_home hs.home]
  exact ⟨rfl, hs.path, hs.proper⟩

theorem value_openStore_of_absent (h : disk.present (pathFrom disk path) = false) :
    (openStore disk path).value = ⟨pathFrom disk path, defaults⟩ := by
  have hl : (load disk (pathFrom disk path)).value = defaults := by
    rw [load, readFile, h]
    rfl
  rw [← hl]
  rfl

/-- Settings that were saved and are opened again lie over the defaults: each value is back at its
path, and the only other ones are defaults at paths that were not saved. All is as it was saved
exactly if no default was missing in a section that was saved. -/
theorem saved_settings_return_over_defaults {s : Situation} (hr : Reachable path s)
    (h : (s.store.save s.disk).value = (.ok (), disk')) :
    ∃ again, (openStore disk' path).value = ⟨s.store.path, again⟩ ∧
      again = overlay defaults s.store.values ∧
      (∀ names v, getAt names s.store.values = some v → ∃ v', getAt names again = some v' ∧
        (v' = v ∨ v.fields?.isSome = true ∧ v'.fields?.isSome = true)) ∧
      (∀ names v, getAt names s.store.values = none → getAt names again = some v →
        getAt names defaults = some v) ∧
      (Same (.object again) (.object s.store.values) ↔ Covers defaults s.store.values) := by
  have hs := hr.steady
  exact ⟨_, value_openStore_of_save h hs.proper hs.path.symm, rfl,
    fun _ _ hv => getAt_overlay hs.proper defaults hv,
    fun _ _ hn hv => getAt_overlay_none hs.proper defaults hn hv,
    same_overlay_iff hs.proper defaults⟩

def formatRemoved : Situation where
  disk := .bare "/home"
  store := ⟨"config.json", [
    ("query", .object [("verbose", .truth false)]),
    ("parsing", .object [("default_language", .text "javascript")]),
    ("output", .object []),
    ("logging", .object [
      ("console_level", .text "WARNING"),
      ("file_level", .text "DEBUG"),
      ("log_file", .null)])]⟩

set_option maxRecDepth 10000 in
theorem locate_bare_home :
    (Disk.bare "/home").locate "config.json" = .ok (["config.json", "home"], none) := by
  cbv

set_option maxRecDepth 10000 in
theorem remove_format : (remove "output.format" defaults).2 = formatRemoved.store.values := by
  cbv

theorem reachable_formatRemoved : Reachable (some "config.json") formatRemoved := by
  have ha : (Disk.bare "/home").present "config.json" = false := by
    rw [present, locate_bare_home]
  have ho : (openStore (Disk.bare "/home") (some "config.json")).value =
      ⟨"config.json", defaults⟩ := value_openStore_of_absent ha
  refine ⟨.bare "/home", [.remove "output.format"], List.forall_mem_singleton.mpr trivial, ?_⟩
  rw [Situation.opened, ho]
  exact congrArg (fun values => Situation.mk (Disk.bare "/home") ⟨"config.json", values⟩)
    remove_format.symm

theorem save_formatRemoved :
    ∃ disk', (formatRemoved.store.save formatRemoved.disk).value = (.ok (), disk') :=
  ⟨_, value_save_of_locate rfl locate_bare_home ⟨rfl, rfl⟩⟩

theorem formatRemoved_returns_over_defaults :
    ∃ disk', Reachable (some "config.json") formatRemoved ∧
      (formatRemoved.store.save formatRemoved.disk).value = (.ok (), disk') ∧
      (openStore disk' (some "config.json")).value =
        ⟨"config.json", overlay defaults formatRemoved.store.values⟩ := by
  obtain ⟨disk', hs⟩ := save_formatRemoved
  obtain ⟨_, ho, rfl, -⟩ := saved_settings_return_over_defaults reachable_formatRemoved hs
  exact ⟨disk', reachable_formatRemoved, hs, ho⟩

/-- A default that was removed is there again when the settings that were saved are opened. -/
theorem removed_default_is_there_again :
    ∃ disk' again, Reachable (some "config.json") formatRemoved ∧
      (formatRemoved.store.save formatRemoved.disk).value = (.ok (), disk') ∧
      (openStore disk' (some "config.json")).value = ⟨"config.json", again⟩ ∧
      getAt ["output", "format"] formatRemoved.store.values = none ∧
      getAt ["output", "format"] again = some (.text "text") ∧
      ¬ Same (.object again) (.object formatRemoved.store.values) := by
  obtain ⟨disk', hs⟩ := save_formatRemoved
  have hp := reachable_formatRemoved.steady.proper
  refine ⟨disk', _, reachable_formatRemoved, hs, value_openStore_of_save hs hp rfl, rfl, rfl, ?_⟩
  rw [same_overlay_iff hp]
  intro hc
  cases hc ["output"] _ _ rfl rfl "format" rfl

end SyntaxQuery.Settings
