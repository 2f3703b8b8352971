import SyntaxQuery.Proofs.Settings.Reopening

namespace SyntaxQuery.Settings

open SyntaxQuery.Disk SyntaxQuery.Json

variable {fields : List (String × Json)} {names : List String}

def Blocked (names : List String) (settings : Section) : Prop :=
  ∃ front rest v, names = front ++ rest ∧ rest ≠ [] ∧ getAt front settings = some v ∧
    v.fields? = none

theorem proper_getAt (hp : Proper (.object fields)) {v : Json} (h : getAt names fields = some v) :
    Proper v := by
  induction names generalizing fields with
  | nil => cases h
  | cons name rest ih =>
    by_cases hr : rest = []
    · subst hr
      exact hp.find? h
    · rw [getAt_cons name hr] at h
      exact ih (proper_sectionAt hp name) h

theorem getAt_overlay_section (hp : Proper (.object fields)) (base : Section)
    {inner : List (String × Json)} (h : getAt names fields = some (.object inner)) :
    getAt names (overlay base fields) =
      some (.object (overlay (((getAt names base).bind fields?).getD []) inner)) := by
  induction names generalizing fields base with
  | nil => cases h
  | cons name rest ih =>
    by_cases hr : rest = []
    · subst hr
      exact find?_overlay_section hp base h
    · rw [getAt_cons name hr] at h ⊢
      rw [getAt_cons name hr]
      by_cases hf : ∃ fields', Table.find? fields name = some (.object fields')
      · obtain ⟨fields', hf⟩ := hf
        rw [sectionAt_of_object hf] at h
        rw [sectionAt_overlay_section hp base hf]
        exact ih (hp.find? hf) (sectionAt name base) h
      · -- names lead on through sections only
        rw [sectionAt_of_no_object (not_exists.mp hf), getAt_empty] at h
        cases h

theorem getAt_overlay_single (hp : Proper (.object fields)) (base : Section) {v : Json}
    (h : getAt names fields = some v) (hv : v.fields? = none) :
    getAt names (overlay base fields) = some v := by
  obtain ⟨v', ho, rfl | ⟨hs, -⟩⟩ := getAt_overlay hp base h
  · exact ho
  · rw [hv] at hs
    cases hs

theorem getAt_overlay_blocked (hp : Proper (.object fields)) (base : Section)
    (h : Blocked names fields) : getAt names (overlay base fields) = none := by
  obtain ⟨front, rest, v, rfl, hr, hg, hv⟩ := h
  have hf : front ≠ [] := by
    rintro rfl
    cases hg
  rw [getAt_append hf hr, getAt_overlay_single hp base hg hv, Option.bind_some, within, hv]
  rfl

theorem getAt_overlay_absent (hp : Proper (.object fields)) (base : Section)
    (h : getAt names fields = none) (hb : ¬ Blocked names fields) :
    getAt names (overlay base fields) = getAt names base := by
  induction names generalizing fields base with
  | nil => rfl
  | cons name rest ih =>
    by_cases hr : rest = []
    · subst hr
      exact find?_overlay_none hp.names base h
    · rw [getAt_cons name hr] at h ⊢
      rw [getAt_cons name hr]
      cases hf : Table.find? fields name with
      | none => rw [sectionAt_overlay_none hp.names base hf]
      | some v =>
        cases hv : v.fields? with
        | none => exact absurd ⟨[name], rest, v, rfl, hr, hf, hv⟩ hb
        | some inner =>
          cases v with
          | object fields' =>
            obtain rfl := Option.some.inj hv
            rw [sectionAt_of_object hf] at h
            rw [sectionAt_overlay_section hp base hf]
            -- what blocks the rest of the names blocks them all
            refine ih (hp.find? hf) (sectionAt name base) h fun hi => hb ?_
            obtain ⟨front, more, w, rfl, hm, hg, hw⟩ := hi
            have hn : front ≠ [] := by
              rintro rfl
              cases hg
            refine ⟨name :: front, more, w, rfl, hm, ?_, hw⟩
            rw [getAt_cons name hn, sectionAt_of_object hf, hg]
          | _ => cases hv

/-- Loading settings forgets what they were. They are the defaults if the file cannot be read or holds
no section. Otherwise each path leads to what the file has there, to nothing where the file has no
section above it, and to the default where the file says nothing; a section of the file has its own
names and those of the default section in its place, and if there is none it is as in the file. -/
theorem load_lays_over_defaults (s : Situation) (hw : HasWholePairs s.disk s.store.path) :
    ∃ loaded, Change.load.apply s = ⟨s.disk, ⟨s.store.path, loaded⟩⟩ ∧
      ((∀ fields, ¬ Says s.disk s.store.path fields) → loaded = defaults) ∧
      ∀ fields, Says s.disk s.store.path fields →
        (∀ name, loaded.has name = (fields.has name || defaults.has name)) ∧
        ∀ names,
          (∀ v, getAt names fields = some v → v.fields? = none → getAt names loaded = some v) ∧
          (Blocked names fields → getAt names loaded = none) ∧
          (getAt names fields = none → ¬ Blocked names fields →
            getAt names loaded = getAt names defaults) ∧
          ∀ inner, getAt names fields = some (.object inner) →
            (∀ old, getAt names defaults = some (.object old) →
              ∃ merged, getAt names loaded = some (.object merged) ∧
                ∀ name, Table.has merged name = (Table.has inner name || Table.has old name)) ∧
            ((∀ old, getAt names defaults ≠ some (.object old)) →
              getAt names loaded = some (.object inner)) := by
  simp only [says_iff_keeps hw]
  refine ⟨(load s.disk s.store.path).value, rfl, value_load_of_not_keeps, fun fields hk => ?_⟩
  have hp := hk.proper
  rw [value_load_of_keeps hk]
  refine ⟨has_overlay hp.names defaults, fun names => ⟨fun v hv hs => ?_, ?_, ?_, ?_⟩⟩
  · exact getAt_overlay_single hp defaults hv hs
  · exact getAt_overlay_blocked hp defaults
  · exact getAt_overlay_absent hp defaults
  · intro inner hi
    have hd := (proper_getAt hp hi).names
    have ho := getAt_overlay_section hp defaults hi
    refine ⟨fun old hd' => ?_, fun hn => ?_⟩
    · rw [hd'] at ho
      exact ⟨_, ho, has_overlay hd old⟩
    · -- without a section in the defaults it is as if it were laid over an empty one
      have he : ((getAt names defaults).bind fields?).getD [] = [] := by
        cases hg : getAt names defaults with
        | none => rfl
        | some v =>
          cases v with
          | object old => exact absurd hg (hn old)
          | _ => rfl
      rw [ho, he, overlay_empty hd]

def partialSettings : Section := [
  ("output", .object [("color", .truth true)]),
  ("query", .integer 1),
  ("window", .object [("width", .integer 80)])]

def partialSituation : Situation where
  disk := (Disk.bare "/home").put ["config.json", "home"] (.file (toBytes partialSettings))
  store := ⟨"config.json", [("left", .null)]⟩

theorem proper_partialSettings : Proper (.object partialSettings) := by
  refine .object (by decide) ?_
  simp only [partialSettings, List.forall_mem_cons]
  refine ⟨.object (by decide) ?_, .integer 1, .object (by decide) ?_, nofun⟩
  · exact List.forall_mem_singleton.mpr (.truth true)
  · exact List.forall_mem_singleton.mpr (.integer 80)

theorem read_partialSituation :
    partialSituation.disk.read partialSituation.store.path = .ok (toBytes partialSettings) := by
  have hn : (none : Option Item) ≠ some .folder := nofun
  have hl := locate_put hn locate_bare_home (.file (toBytes partialSettings))
  rw [Disk.read]
  exact congrArg (· >>= _) hl

theorem hasWholePairs_partialSituation :
    HasWholePairs partialSituation.disk partialSituation.store.path :=
  hasWholePairs_of_read read_partialSituation (by cbv)

theorem says_partialSituation :
    Says partialSituation.disk partialSituation.store.path partialSettings :=
  (says_iff_keeps hasWholePairs_partialSituation).mpr
    (keeps_of_read read_partialSituation proper_partialSettings rfl)

theorem load_lays_over_defaults_partialSituation :
    HasWholePairs partialSituation.disk partialSituation.store.path ∧
      Says partialSituation.disk partialSituation.store.path partialSettings ∧
      Blocked ["query", "verbose"] partialSettings ∧
      ¬ Blocked ["logging", "file_level"] partialSettings ∧
      ∃ loaded, Change.load.apply partialSituation =
          ⟨partialSituation.disk, ⟨"config.json", loaded⟩⟩ ∧
        loaded.has "left" = false ∧
        getAt ["query"] loaded = some (.integer 1) ∧
        getAt ["query", "verbose"] loaded = none ∧
        getAt ["logging", "file_level"] loaded = some (.text "DEBUG") ∧
        (∃ merged, getAt ["output"] loaded = some (.object merged) ∧
          ∀ name, Table.has merged name =
            (Table.has [("color", Json.truth true)] name ||
              Table.has [("format", Json.text "text")] name)) ∧
        getAt ["window"] loaded = some (.object [("width", .integer 80)]) := by
  have hb : Blocked ["query", "verbose"] partialSettings :=
    ⟨["query"], ["verbose"], .integer 1, rfl, List.cons_ne_nil _ _, rfl, rfl⟩
  have hn : ¬ Blocked ["logging", "file_level"] partialSettings := by
    rintro ⟨front, rest, v, he, hr, hg, -⟩
    cases front with
    | nil => cases hg
    | cons name front =>
      obtain ⟨rfl, -⟩ := List.cons.inj he
      cases front <;> cases hg
  have hw := hasWholePairs_partialSituation
  obtain ⟨loaded, hs, -, hk⟩ := load_lays_over_defaults partialSituation hw
  obtain ⟨hh, hp⟩ := hk _ says_partialSituation
  refine ⟨hw, says_partialSituation, hb, hn, loaded, hs, hh "left", ?_, ?_, ?_, ?_, ?_⟩
  · exact (hp ["query"]).1 _ rfl rfl
  · exact (hp ["query", "verbose"]).2.1 hb
  · exact (hp ["logging", "file_level"]).2.2.1 rfl hn
  · exact ((hp ["output"]).2.2.2 _ rfl).1 _ rfl
  · exact ((hp ["window"]).2.2.2 _ rfl).2 nofun

end SyntaxQuery.Settings
