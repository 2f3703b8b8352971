import Mathlib.Tactic.SplitIfs
import SyntaxQuery.Disk.Basic

namespace SyntaxQuery.Disk

variable {disk : Disk} {place : Place}

theorem item?_of_ne_nil (h : place ≠ []) :
    disk.item? place = disk.items.find? (pathOf place) := by
  cases place with
  | nil => exact absurd rfl h
  | cons part rest => rfl

theorem ne_nil_of_item? (h : disk.item? place ≠ some .folder) : place ≠ [] := by
  rintro rfl
  exact h rfl

theorem item?_put_self (h : place ≠ []) (item : Item) :
    (disk.put place item).item? place = some item := by
  rw [item?_of_ne_nil h]
  exact Table.find?_put_self _ _ _

theorem item?_put_of_folder {here : Place} (h : disk.item? place ≠ some .folder)
    (hf : disk.item? here = some .folder) (item : Item) :
    (disk.put place item).item? here = some .folder := by
  cases here with
  | nil => rfl
  | cons part rest =>
    rw [item?_of_ne_nil (List.cons_ne_nil _ _)] at hf ⊢
    rw [item?_of_ne_nil (ne_nil_of_item? h)] at h
    have hne : pathOf place ≠ pathOf (part :: rest) := by
      intro he
      rw [he] at h
      exact h hf
    exact (Table.find?_put_of_ne hne item disk.items).trans hf

/-- What is put at the end of a way does not change the way. -/
theorem follow_put {here : Place} {way : List String} (h : disk.item? place ≠ some .folder)
    (hw : disk.follow here way = .ok place) (item : Item) :
    (disk.put place item).follow here way = .ok place := by
  induction way generalizing here with
  | nil => exact hw
  | cons part rest ih =>
    rw [follow] at hw ⊢
    cases hf : disk.item? here with
    | none => rw [hf] at hw; cases hw
    | some found =>
      rw [hf] at hw
      cases found with
      | file bytes => cases hw
      | locked => cases hw
      | folder =>
        rw [item?_put_of_folder h hf]
        split_ifs at hw ⊢
        · exact ih hw
        · exact ih hw
        · exact ih hw

theorem locate_put {path : String} {found : Option Item} (h : found ≠ some .folder)
    (hl : disk.locate path = .ok (place, found)) (item : Item) :
    (disk.put place item).locate path = .ok (place, some item) := by
  rw [locate] at hl ⊢
  split_ifs at hl ⊢
  cases hf : disk.follow [] (parts (joinPath disk.here path)) with
  | error cause => rw [hf] at hl; cases hl
  | ok there =>
    rw [hf] at hl
    obtain ⟨rfl, rfl⟩ := Prod.mk.inj (Except.ok.inj hl)
    have hw : (disk.put there item).follow [] (parts (joinPath (disk.put there item).here path)) =
        .ok there := follow_put h hf item
    rw [hw]
    exact congrArg (fun o => Except.ok (there, o)) (item?_put_self (ne_nil_of_item? h) item)

def Admits (disk : Disk) (place : Place) : Option Item → Prop
  | some (.file _) => disk.isFixed place = false
  | some _ => False
  | none => disk.isFixed place = false ∧ disk.isFixed place.tail = false

theorem Admits.ne_folder {found : Option Item} (h : disk.Admits place found) :
    found ≠ some .folder := by
  rintro rfl
  exact h

theorem Admits.put {found : Option Item} (h : disk.Admits place found) (item : Item)
    (bytes : List UInt8) : (disk.put place item).Admits place (some (.file bytes)) := by
  cases found with
  | none => exact h.1
  | some old =>
    cases old with
    | file bytes => exact h
    | locked => exact h.elim
    | folder => exact h.elim

theorem alter_ok {path : String} {touched : List Place} {item : Item} {disk' : Disk} :
    disk.alter path touched place item = .ok disk' ↔
      (∀ other ∈ touched, disk.isFixed other = false) ∧ disk' = disk.put place item := by
  rw [alter]
  cases ht : touched.any disk.isFixed with
  | true =>
    obtain ⟨other, hm, hf⟩ := List.any_eq_true.mp ht
    refine iff_of_false nofun fun h => ?_
    rw [h.1 other hm] at hf
    cases hf
  | false =>
    have hf : ∀ other ∈ touched, disk.isFixed other = false := fun other hm =>
      eq_false_of_ne_true (List.any_eq_false.mp ht other hm)
    rw [if_neg Bool.false_ne_true, Except.ok.injEq, eq_comm]
    exact (and_iff_right hf).symm

theorem change_of_locate {path : String} {found : Option Item}
    (hl : disk.locate path = .ok (place, found)) (ha : disk.Admits place found)
    (f : List UInt8 → List UInt8) : ∃ bytes,
      disk.change path f = .ok (disk.put place (.file (f bytes))) := by
  rw [change, hl]
  cases found with
  | none => exact ⟨[], alter_ok.mpr ⟨by simpa [Admits] using ha, rfl⟩⟩
  | some item =>
    cases item with
    | file old => exact ⟨old, alter_ok.mpr ⟨by simpa [Admits] using ha, rfl⟩⟩
    | locked => exact ha.elim
    | folder => exact ha.elim

theorem change_ok {path : String} {f : List UInt8 → List UInt8} {disk' : Disk}
    (h : disk.change path f = .ok disk') :
    ∃ place found bytes, disk.locate path = .ok (place, found) ∧ disk.Admits place found ∧
      disk' = disk.put place (.file (f bytes)) := by
  rw [change] at h
  cases hl : disk.locate path with
  | error e => rw [hl] at h; cases h
  | ok target =>
    obtain ⟨place, found⟩ := target
    rw [hl] at h
    cases found with
    | none =>
      obtain ⟨ha, hd⟩ := alter_ok.mp h
      exact ⟨place, none, [], rfl, by simpa [Admits] using ha, hd⟩
    | some item =>
      cases item with
      | locked => cases h
      | folder => cases h
      | file old =>
        obtain ⟨ha, hd⟩ := alter_ok.mp h
        exact ⟨place, some (.file old), old, rfl, by simpa [Admits] using ha, hd⟩

theorem write_of_locate {path : String} {found : Option Item}
    (hl : disk.locate path = .ok (place, found)) (ha : disk.Admits place found)
    (bytes : List UInt8) : disk.write path bytes = .ok (disk.put place (.file bytes)) := by
  obtain ⟨-, h⟩ := change_of_locate hl ha fun _ => bytes
  exact h

theorem write_ok {path : String} {bytes : List UInt8} {disk' : Disk}
    (h : disk.write path bytes = .ok disk') :
    ∃ place found, disk.locate path = .ok (place, found) ∧ disk.Admits place found ∧
      disk' = disk.put place (.file bytes) := by
  obtain ⟨place, found, -, hl, ha, hd⟩ := change_ok h
  exact ⟨place, found, hl, ha, hd⟩

theorem present_of_read {path : String} {bytes : List UInt8} (h : disk.read path = .ok bytes) :
    disk.present path = true := by
  rw [read] at h
  rw [present]
  cases hl : disk.locate path with
  | error e => rw [hl] at h; cases h
  | ok target =>
    rw [hl] at h
    obtain ⟨place, found⟩ := target
    cases found with
    | none => cases h
    | some item => rfl

/-- What is written to a path is what is read there afterwards. -/
theorem read_of_write {path : String} {bytes : List UInt8} {disk' : Disk}
    (h : disk.write path bytes = .ok disk') : disk'.read path = .ok bytes := by
  obtain ⟨place, found, hl, ha, rfl⟩ := write_ok h
  rw [read, locate_put ha.ne_folder hl (.file bytes)]
  rfl

theorem follow_ne_null (disk : Disk) (here : Place) (way : List String) :
    disk.follow here way ≠ .error .null := by
  induction way generalizing here with
  | nil => nofun
  | cons part rest ih =>
    rw [follow]
    cases disk.item? here with
    | none => nofun
    | some found =>
      cases found with
      | file bytes => nofun
      | locked => nofun
      | folder =>
        dsimp only
        split_ifs
        · exact ih here
        · exact ih here.tail
        · nofun
        · exact ih (part :: here)

theorem locate_of_null {path : String} (h : path.contains '\x00') :
    disk.locate path = .error ⟨.null, path⟩ := by
  have he : path ≠ "" := by
    rintro rfl
    simp at h
  rw [locate, if_neg he, if_pos h]

theorem cause_of_locate {path : String} {e : Refused} (hn : ¬ path.contains '\x00')
    (h : disk.locate path = .error e) : e.cause ≠ .null := by
  rw [locate, if_neg hn] at h
  split_ifs at h with he hl
  · obtain rfl := Except.error.inj h
    nofun
  · obtain rfl := Except.error.inj h
    nofun
  · have hf := disk.follow_ne_null [] (parts (joinPath disk.here path))
    cases hw : disk.follow [] (parts (joinPath disk.here path)) with
    | error cause =>
      rw [hw] at h hf
      obtain rfl := Except.error.inj h
      exact fun hc => hf (congrArg Except.error hc)
    | ok place =>
      rw [hw] at h
      cases h

/-- A file that is refused has no path at all exactly if its path holds a null character. -/
theorem isPathless_of_read {path : String} {e : Refused} (h : disk.read path = .error e) :
    e.isPathless ↔ path.contains '\x00' := by
  rw [read] at h
  by_cases hn : path.contains '\x00'
  · rw [locate_of_null hn] at h
    obtain rfl := Except.error.inj h
    exact iff_of_true rfl hn
  · have hc : e.cause ≠ .null := by
      cases hl : disk.locate path with
      | error refused =>
        rw [hl] at h
        obtain rfl := Except.error.inj h
        exact cause_of_locate hn hl
      | ok found =>
        rw [hl] at h
        obtain ⟨place, item⟩ := found
        cases item with
        | none =>
          obtain rfl := Except.error.inj h
          nofun
        | some item =>
          cases item with
          | file bytes => cases h
          | locked =>
            obtain rfl := Except.error.inj h
            nofun
          | folder =>
            obtain rfl := Except.error.inj h
            nofun
    exact iff_of_false (fun hp => hc (of_decide_eq_true hp)) hn

theorem home_of_write {path : String} {bytes : List UInt8} {disk' : Disk}
    (h : disk.write path bytes = .ok disk') : disk'.home = disk.home := by
  obtain ⟨place, found, -, -, rfl⟩ := write_ok h
  rfl

theorem home_of_makeFolder {path : String} {disk' : Disk} (h : disk.makeFolder path = .ok disk') :
    disk'.home = disk.home := by
  rw [makeFolder] at h
  cases hl : disk.locate path with
  | error e => rw [hl] at h; cases h
  | ok target =>
    obtain ⟨place, found⟩ := target
    rw [hl] at h
    cases found with
    | none =>
      obtain ⟨-, rfl⟩ := alter_ok.mp h
      rfl
    | some item => cases h

theorem home_makeEach (paths : List String) (disk : Disk) :
    (disk.makeEach paths).2.home = disk.home := by
  induction paths generalizing disk with
  | nil => rfl
  | cons path rest ih =>
    rw [makeEach]
    split
    · rw [ih, home_of_makeFolder ‹_›]
    · split
      · exact ih disk
      · rfl

theorem home_makeFolders (disk : Disk) (path : String) :
    (disk.makeFolders path).2.home = disk.home := by
  have hm := home_makeEach
    ((foldersAbove path).reverse.takeWhile fun folder => !disk.present folder).reverse disk
  rw [makeFolders]
  split <;> rename_i he <;> rw [he] at hm
  · exact hm
  · split
    · rw [home_of_makeFolder ‹_›, hm]
    · exact hm

theorem home_makeRoom (disk : Disk) (path : String) : (disk.makeRoom path).2.home = disk.home := by
  rw [makeRoom]
  split
  · rfl
  · exact home_makeFolders disk _

end SyntaxQuery.Disk
