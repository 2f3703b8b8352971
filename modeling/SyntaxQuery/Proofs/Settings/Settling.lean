import SyntaxQuery.Proofs.Settings.Reopening

namespace SyntaxQuery

namespace Table

variable {α : Type} {name : String} {done : Table α}

theorem put_append_of_not_mem (h : name ∉ done.map Prod.fst) (entry : α) (rest : Table α) :
    Table.put name entry (done ++ rest) = done ++ rest.put name entry := by
  induction done with
  | nil => rfl
  | cons head done ih =>
    rw [List.map_cons, List.mem_cons, not_or] at h
    rw [List.cons_append, put, if_neg (Ne.symm h.1), ih h.2]
    rfl

theorem find?_append_of_not_mem (h : name ∉ done.map Prod.fst) (rest : Table α) :
    Table.find? (done ++ rest) name = rest.find? name := by
  induction done with
  | nil => rfl
  | cons head done ih =>
    rw [List.map_cons, List.mem_cons, not_or] at h
    rw [List.cons_append, find?, if_neg (Ne.symm h.1), ih h.2]

theorem find?_of_mem {table : Table α} (hd : (table.map Prod.fst).Nodup) {entry : String × α}
    (h : entry ∈ table) : table.find? entry.1 = some entry.2 := by
  obtain ⟨front, back, rfl⟩ := List.append_of_mem h
  rw [List.map_append, List.nodup_append'] at hd
  rw [find?_append_of_not_mem fun hm => hd.2.2 hm List.mem_cons_self, find?, if_pos rfl]

theorem put_put (name : String) (old new : α) (table : Table α) :
    (table.put name old).put name new = table.put name new := by
  induction table with
  | nil => simp [put]
  | cons head rest ih =>
    by_cases h : head.1 = name
    · simp [put, h]
    · simp [put, h, ih]

theorem names_put (name : String) (entry : α) (table : Table α) :
    table.map Prod.fst <+: (table.put name entry).map Prod.fst := by
  induction table with
  | nil => exact List.nil_prefix
  | cons head rest ih =>
    rw [put]
    split
    · exact List.prefix_rfl
    · exact (List.prefix_cons_inj _).mpr ih

end Table

namespace Settings

open SyntaxQuery.Disk SyntaxQuery.Json

variable {base fields : List (String × Json)}

theorem names_overlay (base : Section) (fields : List (String × Json)) :
    base.map Prod.fst <+: (overlay base fields).map Prod.fst := by
  induction fields generalizing base with
  | nil => exact List.prefix_rfl
  | cons entry rest ih =>
    rw [overlay]
    exact (Table.names_put _ _ base).trans (ih _)

theorem overlay_append_in_place {done base rest : Section}
    (hd : ((done ++ rest).map Prod.fst).Nodup) (hp : base.map Prod.fst <+: rest.map Prod.fst)
    (hv : ∀ entry ∈ rest, overlayValue (base.find? entry.1) entry.2 = entry.2) :
    overlay (done ++ base) rest = done ++ rest := by
  induction rest generalizing done base with
  | nil =>
    rw [List.map_nil, List.prefix_nil, List.map_eq_nil_iff] at hp
    rw [hp]
    rfl
  | cons entry rest ih =>
    obtain ⟨name, v⟩ := entry
    obtain ⟨hn, hr⟩ := List.forall_mem_cons.mp hv
    have hd' : (((done ++ [(name, v)]) ++ rest).map Prod.fst).Nodup := by rwa [← List.append_cons]
    rw [List.map_append, List.nodup_append'] at hd
    obtain ⟨-, hd, hs⟩ := hd
    have hs : name ∉ done.map Prod.fst := fun hm => hs hm List.mem_cons_self
    rw [overlay, Table.find?_append_of_not_mem hs, hn, Table.put_append_of_not_mem hs]
    -- the entry takes the place of the head of the base or, behind the base, a place of its own
    cases base with
    | nil =>
      have hi := @ih (done ++ [(name, v)]) [] hd' List.nil_prefix hr
      rwa [List.append_nil, ← List.append_cons] at hi
    | cons head base =>
      obtain ⟨key, old⟩ := head
      obtain ⟨hk, hb⟩ := List.cons_prefix_cons.mp hp
      obtain rfl : key = name := hk
      have hi : overlay (done ++ [(key, v)] ++ base) rest = done ++ [(key, v)] ++ rest := by
        refine ih hd' hb fun entry he => ?_
        have hm : entry.1 ∈ rest.map Prod.fst := List.mem_map_of_mem he
        have hne : key ≠ entry.1 := fun hk => (List.nodup_cons.mp hd).1 (hk ▸ hm)
        have hv := hr entry he
        rwa [Table.find?, if_neg hne] at hv
      rw [Table.put, if_pos rfl]
      rwa [← List.append_cons, ← List.append_cons] at hi

theorem overlay_in_place (hd : (fields.map Prod.fst).Nodup)
    (hp : base.map Prod.fst <+: fields.map Prod.fst)
    (hv : ∀ entry ∈ fields, overlayValue (Table.find? base entry.1) entry.2 = entry.2) :
    overlay base fields = fields :=
  @overlay_append_in_place [] base fields hd hp hv

theorem overlayValue_self {v : Json} (h : Proper v) : overlayValue (some v) v = v := by
  induction h with
  | @object fields hd _ ih =>
    have ho : overlay fields fields = fields := by
      refine overlay_in_place hd List.prefix_rfl fun entry he => ?_
      rw [Table.find?_of_mem hd he]
      exact ih entry he
    exact congrArg Json.object ho
  | _ => rfl

/-- Settings that were laid over others settle: laid over them again they stay as they are, with all
entries in their places. -/
theorem overlay_overlay (hb : Proper (.object base)) (hp : Proper (.object fields)) :
    overlay base (overlay base fields) = overlay base fields := by
  -- the induction is on the sections in what is laid over, with the base that each of them meets
  generalize hv : Json.object fields = v at hp
  induction hp generalizing fields base with
  | @object entries hd he ih =>
    cases hv
    have hp : Proper (.object entries) := .object hd he
    have ho := (proper_overlay hp hb).names
    refine overlay_in_place ho (names_overlay base entries) fun entry hm => ?_
    have hf := Table.find?_of_mem ho hm
    rw [find?_overlay hd] at hf
    split at hf
    · rw [hf]
      exact overlayValue_self (hb.find? hf)
    · rename_i v hv
      rw [← Option.some.inj hf]
      cases v with
      | object inner =>
        cases hk : Table.find? base entry.1 with
        | none => rfl
        | some old =>
          cases old with
          | object b =>
            exact congrArg Json.object (ih _ (Table.mem_of_find? hv) (hb.find? hk) rfl)
          | _ => rfl
      | _ => rfl
  | _ => cases hv

variable {disk disk' : Disk} {store : Store} {path : Option String}

theorem save_over_saved (h : (store.save disk).value = (.ok (), disk')) :
    ∃ room : Section → Disk, disk' = room store.values ∧
      ∀ values, (Json.object values).isShort = true →
        (Store.save disk' ⟨store.path, values⟩).value = (.ok (), room values) := by
  obtain ⟨-, before, -, hw⟩ := save_ok h
  obtain ⟨place, found, hl, ha, rfl⟩ := write_ok hw
  refine ⟨fun values => before.put place (.file (toBytes values)), rfl, fun values hv => ?_⟩
  have hp := locate_put ha.ne_folder hl (.file (toBytes store.values))
  have hs := @value_save_of_locate _ ⟨store.path, values⟩ hv _ _ hp (ha.put _ _)
  rw [hs, put, put, Table.put_put]
  rfl

theorem save_again (h : (store.save disk).value = (.ok (), disk')) :
    (store.save disk').value = (.ok (), disk') := by
  obtain ⟨room, rfl, hs⟩ := save_over_saved h
  exact hs store.values (save_ok h).1

/-- Settings that lie over the defaults already and were saved stay as they are, however often they
are loaded and saved. -/
theorem after_of_settled (hp : Proper (.object store.values))
    (ho : overlay defaults store.values = store.values)
    (h : (store.save disk).value = (.ok (), disk')) {changes : List Change}
    (hc : ∀ change ∈ changes, change = .load ∨ change = .save) :
    (Situation.mk disk' store).after changes = ⟨disk', store⟩ := by
  induction changes with
  | nil => rfl
  | cons change changes ih =>
    obtain ⟨hf, hr⟩ := List.forall_mem_cons.mp hc
    have ha : change.apply ⟨disk', store⟩ = ⟨disk', store⟩ := by
      obtain rfl | rfl := hf
      · rw [Change.apply, value_load_of_save h hp, ho]
      · rw [Change.apply, save_again h]
    rw [Situation.after, List.foldl_cons, ha]
    exact ih hr

/-- Settings settle with one reload. What is opened after settings were saved can be saved in its turn,
and is then opened again as it is, with all entries in their places. However often it is loaded and
saved from there on it stays the same, and every saving leaves the same octets in the file. -/
theorem saved_settings_settle {s : Situation} (hr : Reachable path s)
    (h : (s.store.save s.disk).value = (.ok (), disk')) :
    ∃ again settled, (openStore disk' path).value = again ∧
      (again.save disk').value = (.ok (), settled) ∧
      (openStore settled path).value = again ∧
      settled.read again.path = .ok (toBytes again.values) ∧
      (again.save settled).value = (.ok (), settled) ∧
      ∀ changes : List Change, (∀ change ∈ changes, change = .load ∨ change = .save) →
        (Situation.opened settled path).after changes = ⟨settled, again⟩ := by
  have hs := hr.steady
  have ho := overlay_overlay proper_defaults hs.proper
  have hp := proper_overlay hs.proper proper_defaults
  have hv := isKept_short.overlay hs.proper (save_ok h).1 (show (object defaults).isShort = true from rfl)
  let again : Store := ⟨s.store.path, overlay defaults s.store.values⟩
  -- the first save made room for every later one
  obtain ⟨room, rfl, hw⟩ := save_over_saved h
  have ha : (again.save (room s.store.values)).value = (.ok (), room again.values) := hw again.values hv
  have hh : (room s.store.values).home = s.disk.home := by
    rw [← home_save s.store s.disk, h]
  have hf : pathFrom (room s.store.values) path = again.path := by
    rw [pathFrom_of_home hh, ← hs.path]
  have hb : (openStore (room again.values) path).value = again := by
    rw [value_openStore_of_save ha hp hf]
    exact congrArg (Store.mk _) ho
  refine ⟨again, room again.values, value_openStore_of_save h hs.proper hs.path.symm, ha, hb,
    read_of_save ha, save_again ha, fun changes hc => ?_⟩
  rw [Situation.opened, hb]
  exact after_of_settled hp ho ha hc

theorem saved_settings_settle_formatRemoved :
    ∃ disk' settled, Reachable (some "config.json") formatRemoved ∧
      (formatRemoved.store.save formatRemoved.disk).value = (.ok (), disk') ∧
      ((⟨"config.json", defaults⟩ : Store).save disk').value = (.ok (), settled) ∧
      (openStore settled (some "config.json")).value = ⟨"config.json", defaults⟩ ∧
      (Situation.opened settled (some "config.json")).after [.save, .load, .save] =
        ⟨settled, ⟨"config.json", defaults⟩⟩ := by
  obtain ⟨disk', hs⟩ := save_formatRemoved
  obtain ⟨again, settled, ho, hw, hr, -, -, ha⟩ :=
    saved_settings_settle reachable_formatRemoved hs
  have hp := reachable_formatRemoved.steady.proper
  obtain rfl : ⟨"config.json", defaults⟩ = again :=
    (value_openStore_of_save hs hp rfl).symm.trans ho
  exact ⟨disk', settled, reachable_formatRemoved, hs, hw, hr, ha _ (by simp)⟩

end Settings

end SyntaxQuery
