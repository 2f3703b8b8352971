import Mathlib.Data.List.Nodup
import SyntaxQuery.Json.Reader
import SyntaxQuery.Proofs.Number.Double

namespace SyntaxQuery

namespace Table

variable {α : Type}

theorem mem_put {name : String} {entry : α} {table : Table α} {e : String × α}
    (h : e ∈ table.put name entry) : e = (name, entry) ∨ e ∈ table := by
  induction table with
  | nil => exact .inl (List.mem_singleton.mp h)
  | cons head rest ih =>
    rw [put] at h
    split at h
    · rename_i hn
      obtain rfl | h := List.mem_cons.mp h
      · exact .inl (by rw [← hn])
      · exact .inr (List.mem_cons_of_mem _ h)
    · obtain rfl | h := List.mem_cons.mp h
      · exact .inr List.mem_cons_self
      · exact (ih h).imp_right (List.mem_cons_of_mem _)

theorem mem_names_put {name other : String} {entry : α} {table : Table α}
    (h : other ∈ (table.put name entry).map Prod.fst) :
    other = name ∨ other ∈ table.map Prod.fst := by
  obtain ⟨e, he, rfl⟩ := List.mem_map.mp h
  obtain rfl | he := mem_put he
  · exact .inl rfl
  · exact .inr (List.mem_map_of_mem he)

theorem nodup_put {name : String} {entry : α} {table : Table α}
    (h : (table.map Prod.fst).Nodup) : ((table.put name entry).map Prod.fst).Nodup := by
  induction table with
  | nil => exact List.nodup_singleton name
  | cons head rest ih =>
    obtain ⟨hk, hr⟩ := List.nodup_cons.mp h
    rw [put]
    split
    · exact List.nodup_cons.mpr ⟨hk, hr⟩
    · rename_i hn
      refine List.nodup_cons.mpr ⟨fun hm => ?_, ih hr⟩
      obtain he | hm := mem_names_put hm
      · exact hn he
      · exact hk hm

theorem mem_of_find? {name : String} {entry : α} {table : Table α}
    (h : table.find? name = some entry) : (name, entry) ∈ table := by
  induction table with
  | nil => cases h
  | cons head rest ih =>
    rw [find?] at h
    split at h
    · rename_i hn
      obtain rfl := Option.some.inj h
      rw [← hn]
      exact List.mem_cons_self
    · exact List.mem_cons_of_mem _ (ih h)

theorem find?_of_not_mem {name : String} {table : Table α} (h : name ∉ table.map Prod.fst) :
    table.find? name = none := by
  cases hf : table.find? name with
  | none => rfl
  | some entry => exact absurd (List.mem_map_of_mem (mem_of_find? hf)) h

theorem put_of_not_mem {name : String} {table : Table α} (h : name ∉ table.map Prod.fst)
    (entry : α) : table.put name entry = table ++ [(name, entry)] := by
  induction table with
  | nil => rfl
  | cons head rest ih =>
    rw [List.map_cons, List.mem_cons, not_or] at h
    rw [put, if_neg (Ne.symm h.1), ih h.2]
    rfl

end Table

namespace Json

open SyntaxQuery.Number

/-- A document in which no object has a name twice. -/
inductive Proper : Json → Prop where
  | null : Proper null
  | truth (b : Bool) : Proper (truth b)
  | integer (n : Int) : Proper (integer n)
  | real {x : Double} (h : x.isNaN = true → x = .nan) : Proper (real x)
  | text (s : String) : Proper (text s)
  | array {items : List Json} (h : ∀ v ∈ items, Proper v) : Proper (array items)
  | object {fields : List (String × Json)} (hd : (fields.map Prod.fst).Nodup)
      (h : ∀ entry ∈ fields, Proper entry.2) : Proper (object fields)

variable {fields : List (String × Json)} {v : Json} {name : String}

theorem Proper.names (h : Proper (.object fields)) : (fields.map Prod.fst).Nodup := by
  cases h with
  | object hd h => exact hd

theorem Proper.entries (h : Proper (.object fields)) : ∀ entry ∈ fields, Proper entry.2 := by
  cases h with
  | object hd h => exact h

theorem Proper.find? (h : Proper (.object fields)) (hf : Table.find? fields name = some v) :
    Proper v :=
  h.entries _ (Table.mem_of_find? hf)

theorem Proper.put (h : Proper (.object fields)) (hv : Proper v) (name : String) :
    Proper (.object (Table.put name v fields)) := by
  refine .object (Table.nodup_put h.names) fun entry he => ?_
  obtain rfl | he := Table.mem_put he
  · exact hv
  · exact h.entries entry he

theorem Proper.drop (h : Proper (.object fields)) (name : String) :
    Proper (.object (Table.drop name fields)) := by
  have hs : (Table.drop name fields).Sublist fields := List.filter_sublist
  exact .object (h.names.sublist (hs.map Prod.fst)) fun entry he => h.entries entry (hs.mem he)

namespace Reader

theorem real_proper (negative : Bool) (digits : Nat) (scale : Int) :
    Proper (.real (.ofDecimal negative digits scale)) := by
  refine .real fun hn => ?_
  rw [Double.isNaN_ofDecimal] at hn
  cases hn

theorem readBehind_proper {negative : Bool} {ds cs rest : List Char}
    (h : readBehind negative ds cs = some (v, rest)) : Proper v := by
  rw [readBehind] at h
  split at h
  · split at h
    · split at h
      · cases h
        exact .integer _
      · cases h
    · cases h
      exact real_proper _ _ _
  · cases h
    exact real_proper _ _ _

theorem readAmount_proper {negative : Bool} {cs rest : List Char}
    (h : readAmount negative cs = some (v, rest)) : Proper v := by
  rw [readAmount, readNumber] at h
  split at h
  · cases h
    cases negative <;> exact .real fun hn => absurd hn (by decide)
  split at h
  · cases h
  · exact readBehind_proper h

/-- What is read is proper: a name that comes again takes the place of the first one. -/
theorem read_proper (fuel : Nat) :
    (∀ cs v rest, readValue fuel cs = some (v, rest) → Proper v) ∧
    (∀ done cs v rest, (∀ w ∈ done, Proper w) → readItems fuel done cs = some (v, rest) →
      Proper v) ∧
    (∀ done cs v rest, Proper (.object done) → readFields fuel done cs = some (v, rest) →
      Proper v) := by
  induction fuel with
  | zero =>
    refine ⟨fun _ _ _ h => ?_, fun _ _ _ _ _ h => ?_, fun _ _ _ _ _ h => ?_⟩
    · cases h
    · cases h
    · cases h
  | succ fuel ih =>
    obtain ⟨hv, hi, hf⟩ := ih
    refine ⟨fun cs v rest h => ?_, fun done cs v rest hd h => ?_, fun done cs v rest hd h => ?_⟩
    · rw [readValue] at h
      split at h
      · obtain ⟨_, -, he⟩ := Option.map_eq_some_iff.mp h
        cases he
        exact .text _
      · split at h
        · cases h
          exact .array fun w hw => by cases hw
        · exact hi _ _ _ _ (fun w hw => by cases hw) h
      · split at h
        · cases h
          exact .object List.nodup_nil fun w hw => by cases hw
        · exact hf [] _ _ _ (.object List.nodup_nil fun w hw => by cases hw) h
      · cases h
        exact .null
      · cases h
        exact .truth true
      · cases h
        exact .truth false
      · cases h
        exact .real fun _ => rfl
      · exact readAmount_proper h
      · exact readAmount_proper h
    · rw [readItems] at h
      split at h
      · cases h
      rename_i item rest' hr
      have hm : ∀ w ∈ item :: done, Proper w := List.forall_mem_cons.mpr ⟨hv _ _ _ hr, hd⟩
      split at h
      · exact hi _ _ _ _ hm h
      · cases h
        exact .array fun w hw => hm w (List.mem_reverse.mp hw)
      · cases h
    · rw [readFields] at h
      split at h
      · split at h
        · cases h
        split at h
        · split at h
          · cases h
          rename_i value rest' hr
          have hp := hd.put (hv _ _ _ hr)
          split at h
          · exact hf _ _ _ _ (hp _) h
          · cases h
            exact hp _
          · cases h
        · cases h
      · cases h

end Reader

theorem parse?_proper {s : String} (h : parse? s = some v) : Proper v := by
  rw [parse?] at h
  split at h
  · rename_i document rest hr
    split at h
    · obtain rfl := Option.some.inj h
      exact (Reader.read_proper _).1 _ _ _ hr
    · cases h
  · cases h

end Json

end SyntaxQuery
