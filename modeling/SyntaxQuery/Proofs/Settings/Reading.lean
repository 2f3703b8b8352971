import SyntaxQuery.Proofs.Disk.Write
import SyntaxQuery.Proofs.Json.RoundTrip
import SyntaxQuery.Proofs.Text.Utf8
import SyntaxQuery.Settings.Store

namespace SyntaxQuery.Settings

open SyntaxQuery.Disk SyntaxQuery.Json

variable {disk : Disk} {path : String} {fields : Section}

/-- A file can be read, and its text is a document with these fields. -/
def Keeps (disk : Disk) (path : String) (fields : Section) : Prop :=
  ∃ bytes text, disk.read path = .ok bytes ∧ Text.decode? bytes = some text ∧
    parse? text = some (.object fields)

/-- A file can be read, and its text says these fields: no name or text in it has half of a pair of
units alone, which would not be kept. -/
def Says (disk : Disk) (path : String) (fields : Section) : Prop :=
  ∃ bytes text, disk.read path = .ok bytes ∧ Text.decode? bytes = some text ∧
    hasWholePairs false text.toList = true ∧ parse? text = some (.object fields)

def HasWholePairs (disk : Disk) (path : String) : Prop :=
  ∀ bytes text, disk.read path = .ok bytes → Text.decode? bytes = some text →
    hasWholePairs false text.toList = true

theorem says_iff_keeps (h : HasWholePairs disk path) :
    Says disk path fields ↔ Keeps disk path fields := by
  constructor
  · rintro ⟨bytes, text, hr, ht, -, hp⟩
    exact ⟨bytes, text, hr, ht, hp⟩
  · rintro ⟨bytes, text, hr, ht, hp⟩
    exact ⟨bytes, text, hr, ht, h bytes text hr ht, hp⟩

theorem hasWholePairs_of_absent (h : disk.present path = false) : HasWholePairs disk path := by
  intro bytes text hr
  rw [present_of_read hr] at h
  cases h

theorem hasWholePairs_of_read (h : disk.read path = .ok (toBytes fields))
    (hw : hasWholePairs false (render 4 (.object fields)).toList = true) :
    HasWholePairs disk path := by
  intro bytes text hr ht
  obtain rfl := Except.ok.inj (h.symm.trans hr)
  rw [toBytes, Text.decode?_octets] at ht
  obtain rfl := Option.some.inj ht
  exact hw

theorem Keeps.proper (h : Keeps disk path fields) : Proper (.object fields) := by
  obtain ⟨bytes, text, -, -, hp⟩ := h
  exact parse?_proper hp

theorem keeps_of_read (h : disk.read path = .ok (toBytes fields)) (hp : Proper (.object fields))
    (hs : (Json.object fields).isShort = true) : Keeps disk path fields :=
  ⟨_, _, h, Text.decode?_octets _, parse?_render hp hs 4⟩

theorem ofBytes_eq_ok {bytes : List UInt8} :
    ofBytes bytes = .ok fields ↔
      ∃ text, Text.decode? bytes = some text ∧ parse? text = some (.object fields) := by
  rw [← Option.bind_eq_some_iff, ofBytes]
  cases (Text.decode? bytes).bind parse? with
  | none => constructor <;> intro h <;> cases h
  | some v => cases v <;> simp

theorem readFile_eq_ok : readFile disk path = .ok (some fields) ↔ Keeps disk path fields := by
  constructor
  · intro h
    rw [readFile] at h
    split at h
    · split at h
      · cases h
      · rename_i bytes hr
        cases hb : ofBytes bytes with
        | error e => rw [hb] at h; cases h
        | ok found =>
          rw [hb] at h
          obtain rfl := Option.some.inj (Except.ok.inj h)
          obtain ⟨text, ht, hp⟩ := ofBytes_eq_ok.mp hb
          exact ⟨bytes, text, hr, ht, hp⟩
    · cases h
  · rintro ⟨bytes, text, hr, ht, hp⟩
    rw [readFile, if_pos (present_of_read hr), hr]
    exact congrArg (Except.map some) (ofBytes_eq_ok.mpr ⟨text, ht, hp⟩)

theorem value_load_of_keeps (h : Keeps disk path fields) :
    (load disk path).value = overlay defaults fields := by
  rw [load, readFile_eq_ok.mpr h]
  rfl

theorem value_load_of_not_keeps (h : ∀ fields, ¬ Keeps disk path fields) :
    (load disk path).value = defaults := by
  rw [load]
  split
  · rename_i hf
    exact absurd (readFile_eq_ok.mp hf) (h _)
  · rfl
  · rfl

end SyntaxQuery.Settings
