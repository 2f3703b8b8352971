import SyntaxQuery.Proofs.Json.Proper
import SyntaxQuery.Proofs.Settings.Path

namespace SyntaxQuery.Settings

open SyntaxQuery.Json

/-- The same value: sections are compared name by name, in whatever order their entries stand. -/
inductive Same : Json → Json → Prop where
  | refl (v : Json) : Same v v
  | object {a b : List (String × Json)}
      (hn : ∀ name, Table.has a name = Table.has b name)
      (hv : ∀ name x y, Table.find? a name = some x → Table.find? b name = some y → Same x y) :
      Same (.object a) (.object b)

def sectionIn : List String → Section → Option Section
  | [], settings => some settings
  | name :: rest, settings => ((settings.find? name).bind fields?).bind (sectionIn rest)

/-- In every section that both have, all names of the one are names of the other. -/
def Covers (base settings : Section) : Prop :=
  ∀ names b s, sectionIn names base = some b → sectionIn names settings = some s →
    ∀ name, b.has name = true → s.has name = true

variable {fields : List (String × Json)} {name : String}

theorem find?_overlay (hd : (fields.map Prod.fst).Nodup) (base : Section) (name : String) :
    (overlay base fields).find? name =
      match Table.find? fields name with
      | none => base.find? name
      | some v => some (overlayValue (base.find? name) v) := by
  induction fields generalizing base with
  | nil => rfl
  | cons entry rest ih =>
    obtain ⟨key, v⟩ := entry
    obtain ⟨hk, hr⟩ := List.nodup_cons.mp hd
    rw [overlay, ih hr, Table.find?]
    by_cases h : key = name
    · subst h
      rw [if_pos rfl, Table.find?_of_not_mem hk, Table.find?_put_self]
    · rw [if_neg h, Table.find?_put_of_ne h]

theorem find?_overlay_none (hd : (fields.map Prod.fst).Nodup) (base : Section)
    (h : Table.find? fields name = none) : (overlay base fields).find? name = base.find? name := by
  rw [find?_overlay hd, h]

theorem find?_overlay_some (hd : (fields.map Prod.fst).Nodup) (base : Section) {v : Json}
    (h : Table.find? fields name = some v) :
    (overlay base fields).find? name = some (overlayValue (base.find? name) v) := by
  rw [find?_overlay hd, h]

theorem overlayValue_single {v : Json} (h : v.fields? = none) (old : Option Json) :
    overlayValue old v = v := by
  cases v with
  | object fields => cases h
  | _ => rfl

theorem overlay_of_disjoint {base : Section} (hd : (fields.map Prod.fst).Nodup)
    (hb : (base.map Prod.fst).Disjoint (fields.map Prod.fst)) : overlay base fields = base ++ fields := by
  induction fields generalizing base with
  | nil => exact (List.append_nil base).symm
  | cons entry rest ih =>
    obtain ⟨key, v⟩ := entry
    obtain ⟨hk, hr⟩ := List.nodup_cons.mp hd
    have hn : key ∉ base.map Prod.fst := fun h => hb h List.mem_cons_self
    have ho : overlayValue (base.find? key) v = v := by
      rw [Table.find?_of_not_mem hn]
      cases v <;> rfl
    rw [overlay, ho, Table.put_of_not_mem hn, ih hr, List.append_assoc]
    · rfl
    · rw [List.map_append, List.disjoint_append_left]
      refine ⟨fun x hx hm => hb hx (List.mem_cons_of_mem _ hm), ?_⟩
      exact List.singleton_disjoint.mpr hk

theorem overlay_empty (hd : (fields.map Prod.fst).Nodup) : overlay [] fields = fields :=
  overlay_of_disjoint hd (List.disjoint_nil_left _)

theorem find?_overlay_section (hp : Proper (.object fields)) (base : Section)
    {inner : List (String × Json)} (h : Table.find? fields name = some (.object inner)) :
    (overlay base fields).find? name = some (.object (overlay (sectionAt name base) inner)) := by
  rw [find?_overlay_some hp.names base h, sectionAt]
  cases base.find? name with
  | none => exact congrArg _ (congrArg _ (overlay_empty (hp.find? h).names).symm)
  | some old =>
    cases old with
    | object b => rfl
    | _ => exact congrArg _ (congrArg _ (overlay_empty (hp.find? h).names).symm)

theorem sectionIn_empty {names : List String} {s : Section} (h : sectionIn names [] = some s) :
    s = [] := by
  cases names with
  | nil => exact (Option.some.inj h).symm
  | cons name rest => cases h

theorem sectionIn_cons {settings : Section} {rest : List String} {s : Section}
    (h : sectionIn (name :: rest) settings = some s) :
    settings.find? name = some (.object (sectionAt name settings)) ∧
      sectionIn rest (sectionAt name settings) = some s := by
  rw [sectionIn] at h
  obtain ⟨inner, hi, hr⟩ := Option.bind_eq_some_iff.mp h
  obtain ⟨v, hf, hv⟩ := Option.bind_eq_some_iff.mp hi
  cases v with
  | object fields =>
    obtain rfl := Option.some.inj hv
    rw [sectionAt_of_object hf]
    exact ⟨hf, hr⟩
  | _ => cases hv

theorem covers_cons_iff {base settings : Section} :
    Covers base settings ↔ (∀ name, base.has name = true → settings.has name = true) ∧
      ∀ name inner, settings.find? name = some (.object inner) → Covers (sectionAt name base) inner := by
  constructor
  · intro h
    refine ⟨h [] base settings rfl rfl, fun name inner hs names b s hb hs' => ?_⟩
    by_cases hf : ∃ old, base.find? name = some (.object old)
    · obtain ⟨old, hf⟩ := hf
      refine h (name :: names) b s ?_ ?_
      · rw [sectionIn, hf]
        rwa [sectionAt_of_object hf] at hb
      · rw [sectionIn, hs]
        exact hs'
    · rw [sectionAt_of_no_object fun fields he => hf ⟨fields, he⟩] at hb
      obtain rfl := sectionIn_empty hb
      exact fun other ho => by cases ho
  · rintro ⟨hh, hi⟩ names b s hb hs
    cases names with
    | nil =>
      obtain rfl := Option.some.inj hb
      obtain rfl := Option.some.inj hs
      exact hh
    | cons name rest =>
      obtain ⟨hf, hs⟩ := sectionIn_cons hs
      exact hi name _ hf rest b s (sectionIn_cons hb).2 hs

theorem has_overlay (hd : (fields.map Prod.fst).Nodup) (base : Section) (name : String) :
    (overlay base fields).has name = (Table.has fields name || base.has name) := by
  rw [Table.has, Table.has, Table.has, find?_overlay hd]
  cases Table.find? fields name <;> rfl

theorem same_object_iff {a b : List (String × Json)} :
    Same (.object a) (.object b) ↔ (∀ name, Table.has a name = Table.has b name) ∧
      ∀ name x y, Table.find? a name = some x → Table.find? b name = some y → Same x y := by
  refine ⟨fun h => ?_, fun h => .object h.1 h.2⟩
  cases h with
  | refl =>
    refine ⟨fun _ => rfl, fun name x y hx hy => ?_⟩
    obtain rfl := Option.some.inj (hx.symm.trans hy)
    exact .refl x
  | object hn hv => exact ⟨hn, hv⟩

/-- Settings that are laid over others stay the same exactly if they have all names of these. -/
theorem same_overlay_iff (hp : Proper (.object fields)) (base : Section) :
    Same (.object (overlay base fields)) (.object fields) ↔ Covers base fields := by
  generalize hv : Json.object fields = v at hp
  induction hp generalizing fields base with
  | @object entries hd h ih =>
    cases hv
    have hp : Proper (.object entries) := .object hd h
    rw [same_object_iff, covers_cons_iff]
    refine and_congr ?_ ?_
    · simp only [has_overlay hd]
      refine forall_congr' fun name => ?_
      cases Table.has entries name <;> cases base.has name <;> simp
    · constructor
      · intro hs name inner hf
        refine (ih _ (Table.mem_of_find? hf) (sectionAt name base) rfl).mp ?_
        exact hs name _ _ (find?_overlay_section hp base hf) hf
      · intro hc name x y hx hy
        cases y with
        | object inner =>
          rw [find?_overlay_section hp base hy] at hx
          obtain rfl := Option.some.inj hx
          exact (ih _ (Table.mem_of_find? hy) (sectionAt name base) rfl).mpr (hc name inner hy)
        | _ =>
          rw [find?_overlay_some hd base hy, overlayValue_single rfl] at hx
          obtain rfl := Option.some.inj hx
          exact .refl _
  | _ => cases hv

theorem sectionAt_overlay_section (hp : Proper (.object fields)) (base : Section)
    {inner : List (String × Json)} (h : Table.find? fields name = some (.object inner)) :
    sectionAt name (overlay base fields) = overlay (sectionAt name base) inner :=
  sectionAt_of_object (find?_overlay_section hp base h)

theorem sectionAt_overlay_none (hd : (fields.map Prod.fst).Nodup) (base : Section)
    (h : Table.find? fields name = none) :
    sectionAt name (overlay base fields) = sectionAt name base := by
  rw [sectionAt, find?_overlay_none hd base h, sectionAt]

theorem sectionAt_overlay_single (hd : (fields.map Prod.fst).Nodup) (base : Section) {v : Json}
    (hv : v.fields? = none) (h : Table.find? fields name = some v) :
    sectionAt name (overlay base fields) = [] := by
  rw [sectionAt, find?_overlay_some hd base h, overlayValue_single hv, Option.bind_some, hv,
    Option.getD_none]

theorem getAt_overlay (hp : Proper (.object fields)) (base : Section) {names : List String}
    {v : Json} (h : getAt names fields = some v) :
    ∃ v', getAt names (overlay base fields) = some v' ∧
      (v' = v ∨ v.fields?.isSome = true ∧ v'.fields?.isSome = true) := by
  induction names generalizing fields base with
  | nil => cases h
  | cons name rest ih =>
    by_cases hr : rest = []
    · subst hr
      rw [getAt] at h ⊢
      cases v with
      | object inner => exact ⟨_, find?_overlay_section hp base h, .inr ⟨rfl, rfl⟩⟩
      | _ =>
        rw [find?_overlay_some hp.names base h, overlayValue_single rfl]
        exact ⟨_, rfl, .inl rfl⟩
    · rw [getAt_cons name hr] at h ⊢
      by_cases hf : ∃ inner, Table.find? fields name = some (.object inner)
      · obtain ⟨inner, hf⟩ := hf
        rw [sectionAt_of_object hf] at h
        rw [sectionAt_overlay_section hp base hf]
        exact ih (hp.find? hf) (sectionAt name base) h
      · rw [sectionAt_of_no_object (not_exists.mp hf), getAt_empty] at h
        cases h

theorem getAt_overlay_none (hp : Proper (.object fields)) (base : Section) {names : List String}
    {v : Json} (h : getAt names fields = none)
    (ho : getAt names (overlay base fields) = some v) : getAt names base = some v := by
  induction names generalizing fields base with
  | nil => cases ho
  | cons name rest ih =>
    by_cases hr : rest = []
    · subst hr
      rw [getAt] at h ho ⊢
      rwa [find?_overlay_none hp.names base h] at ho
    · rw [getAt_cons name hr] at h ho ⊢
      cases hf : Table.find? fields name with
      | none => rwa [sectionAt_overlay_none hp.names base hf] at ho
      | some w =>
        cases w with
        | object inner =>
          rw [sectionAt_of_object hf] at h
          rw [sectionAt_overlay_section hp base hf] at ho
          exact ih (hp.find? hf) (sectionAt name base) h ho
        | _ =>
          rw [sectionAt_overlay_single hp.names base rfl hf, getAt_empty] at ho
          cases ho

end SyntaxQuery.Settings
