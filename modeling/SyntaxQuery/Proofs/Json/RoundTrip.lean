import SyntaxQuery.Proofs.Json.Number
import SyntaxQuery.Proofs.Json.Proper
import SyntaxQuery.Proofs.Json.Text

namespace SyntaxQuery.Json

open SyntaxQuery.Number Reader

variable {rest : List Char}

theorem skip_cons {c : Char} (h : isGap c = false) (cs : List Char) : skip (c :: cs) = c :: cs :=
  List.dropWhile_cons_of_neg (by rw [h]; exact Bool.false_ne_true)

theorem skip_gap {gap : List Char} (h : ∀ c ∈ gap, isGap c = true) (cs : List Char) :
    skip (gap ++ cs) = skip cs :=
  List.dropWhile_append_of_pos h

theorem readValue_gap {gap : List Char} (h : ∀ c ∈ gap, isGap c = true) (fuel : Nat)
    (cs : List Char) : readValue fuel (gap ++ cs) = readValue fuel cs := by
  cases fuel with
  | zero => rfl
  | succ fuel => rw [readValue, skip_gap h, readValue]

theorem readItems_gap {gap : List Char} (h : ∀ c ∈ gap, isGap c = true) (fuel : Nat)
    (done : List Json) (cs : List Char) :
    readItems fuel done (gap ++ cs) = readItems fuel done cs := by
  cases fuel with
  | zero => rfl
  | succ fuel => rw [readItems, readValue_gap h, readItems]

theorem readFields_gap {gap : List Char} (h : ∀ c ∈ gap, isGap c = true) (fuel : Nat)
    (done : Table Json) (cs : List Char) :
    readFields fuel done (gap ++ cs) = readFields fuel done cs := by
  cases fuel with
  | zero => rfl
  | succ fuel => rw [readFields, skip_gap h, readFields]

theorem toList_lineBreak (step depth : Nat) :
    (lineBreak step depth).toList = '\n' :: List.replicate (step * depth) ' ' :=
  String.toList_ofList

theorem gap_lineBreak (step depth : Nat) : ∀ c ∈ (lineBreak step depth).toList, isGap c = true := by
  rw [toList_lineBreak, List.forall_mem_cons]
  refine ⟨rfl, fun c hc => ?_⟩
  rw [List.eq_of_mem_replicate hc]
  rfl

theorem endsNumber_lineBreak (step depth : Nat) : EndsNumber ((lineBreak step depth).toList ++ rest) := by
  rw [toList_lineBreak]
  rintro c ⟨⟩
  decide

theorem endsNumber_comma : EndsNumber (',' :: rest) := by
  rintro c ⟨⟩
  decide

theorem ne_of_amount {c : Char} (h : c.isDigit = true ∨ c = 'I') :
    ∀ d ∈ [' ', '\t', '\n', '\r', '"', '[', '\x7b', 'n', 't', 'f', 'N', '-', ']'], c ≠ d := by
  have hd : ∀ d ∈ [' ', '\t', '\n', '\r', '"', '[', '\x7b', 'n', 't', 'f', 'N', '-', ']'],
      ¬(d.isDigit = true ∨ d = 'I') := by simp
  rintro d hm rfl
  exact hd _ hm h

theorem isGap_of_amount {c : Char} (h : c.isDigit = true ∨ c = 'I') : isGap c = false := by
  have hne := ne_of_amount h
  simp only [List.forall_mem_cons] at hne
  simp [isGap, hne]

theorem readValue_amount {cs : List Char} (h : BeginsAmount cs) (negative : Bool) (fuel : Nat) :
    readValue (fuel + 1) ((if negative then ['-'] else []) ++ cs) = readAmount negative cs := by
  cases negative with
  | true => rfl
  | false =>
    obtain ⟨c, cs, rfl, hc⟩ := h.cons
    have hne := ne_of_amount hc
    simp only [List.forall_mem_cons] at hne
    rw [if_neg Bool.false_ne_true, List.nil_append, readValue, skip_cons (isGap_of_amount hc)]
    split <;> first
      | rfl
      | exact absurd (List.cons.inj ‹_›).1 (by simp [hne])

/-- What is written is read back, if what follows does not go on with it and there is enough fuel for
its length. -/
def ReadsBack (v : Json) : Prop :=
  ∀ step depth fuel rest, (write step depth v).toList.length ≤ fuel → EndsNumber rest →
    readValue (fuel + 1) ((write step depth v).toList ++ rest) = some (v, rest)

theorem head_digits (n : Nat) : ∃ c ∈ (digits n).head?, c.isDigit = true := by
  obtain ⟨d, ds, he⟩ := List.exists_cons_of_ne_nil (Nat.toDigits_ne_nil (b := 10) (n := n))
  have hd : d ∈ Nat.toDigits 10 n := he ▸ List.mem_cons_self
  exact ⟨d, by rw [digits, he]; rfl, Nat.isDigit_of_mem_toDigits (by decide) le_rfl hd⟩

theorem readsBack_integer {n : Int} (h : Number.isShort n = true) : ReadsBack (.integer n) := by
  intro step depth fuel rest hf hr
  have hs : (digits n.natAbs).length ≤ digitLimit := of_decide_eq_true h
  have ha (negative : Bool) {n : Nat} (hs : (digits n).length ≤ digitLimit) :
      readValue (fuel + 1) ((if negative then ['-'] else []) ++ (digits n ++ rest)) =
        some (.integer (withSign negative n), rest) := by
    obtain ⟨c, hc, hd⟩ := head_digits n
    have hc' := List.mem_head?_append_of_mem_head? (t := rest) hc
    rw [readValue_amount ⟨c, hc', .inl hd⟩, readAmount_of_digit _ ⟨c, hc', hd⟩,
      readNumber_digits negative hs hr]
  rw [write, String.toList_ofList]
  cases n with
  | ofNat n => exact ha false hs
  | negSucc n => exact ha true hs

theorem readsBack_real {x : Double} (h : x.isNaN = true → x = .nan) : ReadsBack (.real x) := by
  intro step depth fuel rest hf hr
  rw [write, String.toList_ofList]
  by_cases hn : x.isNaN = true
  · obtain rfl := h hn
    rfl
  · rw [Bool.not_eq_true] at hn
    obtain ⟨cs, hw, hb, ha⟩ := writeReal_eq hn
    rw [hw, List.append_assoc, readValue_amount (hb.append rest), ha rest hr]

theorem readsBack_text (s : String) : ReadsBack (.text s) := by
  intro step depth fuel rest hf hr
  obtain ⟨cs, hw, hs⟩ := readText_writeText s rest
  rw [write, hw, List.cons_append, readValue, skip_cons rfl]
  simp only [hs, Option.map_some]

theorem head_write (step depth : Nat) (v : Json) :
    ∃ c cs, (write step depth v).toList = c :: cs ∧ isGap c = false ∧ c ≠ ']' := by
  have hamount (negative : Bool) {cs : List Char} (h : BeginsAmount cs) :
      ∃ c cs', (if negative then ['-'] else []) ++ cs = c :: cs' ∧ isGap c = false ∧ c ≠ ']' := by
    obtain ⟨c, cs, rfl, hc⟩ := h.cons
    cases negative with
    | true => exact ⟨'-', _, rfl, rfl, by decide⟩
    | false => exact ⟨c, cs, rfl, isGap_of_amount hc, ne_of_amount hc _ (by simp)⟩
  cases v with
  | null => exact ⟨'n', ['u', 'l', 'l'], by rw [write]; rfl, rfl, by decide⟩
  | truth b =>
    cases b with
    | false => exact ⟨'f', ['a', 'l', 's', 'e'], by rw [write]; rfl, rfl, by decide⟩
    | true => exact ⟨'t', ['r', 'u', 'e'], by rw [write]; rfl, rfl, by decide⟩
  | integer n =>
    rw [write, String.toList_ofList]
    cases n with
    | ofNat n =>
      obtain ⟨c, hc, hd⟩ := head_digits n
      exact hamount false ⟨c, hc, .inl hd⟩
    | negSucc n =>
      obtain ⟨c, hc, hd⟩ := head_digits (n + 1)
      exact hamount true ⟨c, hc, .inl hd⟩
  | real x =>
    rw [write, String.toList_ofList]
    cases hn : x.isNaN with
    | true => exact ⟨'N', ['a', 'N'], by rw [writeReal, if_pos hn], rfl, by decide⟩
    | false =>
      obtain ⟨cs, hw, hb, -⟩ := writeReal_eq hn
      rw [hw]
      exact hamount _ hb
  | text s =>
    obtain ⟨cs, hw, -⟩ := readText_writeText s []
    exact ⟨'"', cs, by rw [write, hw], rfl, by decide⟩
  | array items =>
    cases items with
    | nil => exact ⟨'[', [']'], by rw [write]; rfl, rfl, by decide⟩
    | cons item items =>
      rw [write]
      simp only [String.toList_append]
      exact ⟨'[', _, rfl, rfl, by decide⟩
  | object fields =>
    cases fields with
    | nil => exact ⟨'\x7b', ['\x7d'], by rw [write]; rfl, rfl, by decide⟩
    | cons field fields =>
      rw [write]
      simp only [String.toList_append]
      exact ⟨'\x7b', _, rfl, rfl, by decide⟩

theorem toList_writeItems (step depth : Nat) (item : Json) (items : List Json) :
    (writeItems step depth (item :: items)).toList = ',' :: ((lineBreak step depth).toList ++
      ((write step depth item).toList ++ (writeItems step depth items).toList)) := by
  rw [writeItems]
  simp only [String.toList_append, List.append_assoc]
  rfl

theorem readItems_write {item : Json} {items : List Json} (h : ∀ v ∈ item :: items, ReadsBack v)
    (step depth outer : Nat) {fuel : Nat} (done : List Json) (rest : List Char)
    (hf : (write step depth item).toList.length + (writeItems step depth items).toList.length < fuel) :
    readItems (fuel + 1) done ((write step depth item).toList ++
      ((writeItems step depth items).toList ++ ((lineBreak step outer).toList ++ ']' :: rest))) =
      some (.array (done.reverse ++ item :: items), rest) := by
  -- every item takes one unit of fuel, and at least one character is written for it
  induction items generalizing item fuel done with
  | nil =>
    obtain ⟨k, rfl⟩ := Nat.exists_eq_add_one_of_ne_zero (Nat.ne_zero_of_lt hf)
    have hv := h item List.mem_cons_self step depth k
      ((lineBreak step outer).toList ++ ']' :: rest) (by omega) (endsNumber_lineBreak step outer)
    rw [writeItems, String.toList_empty, List.nil_append, readItems, hv]
    simp only [skip_gap (gap_lineBreak step outer), skip_cons (c := ']') rfl]
    rw [List.reverse_cons]
  | cons next items ih =>
    obtain ⟨k, rfl⟩ := Nat.exists_eq_add_one_of_ne_zero (Nat.ne_zero_of_lt hf)
    rw [toList_writeItems, List.length_cons, List.length_append, List.length_append] at hf
    have hv := h item List.mem_cons_self step depth k
      (',' :: ((lineBreak step depth).toList ++ ((write step depth next).toList ++
        ((writeItems step depth items).toList ++ ((lineBreak step outer).toList ++ ']' :: rest)))))
      (by omega) endsNumber_comma
    have hi := ih (List.forall_mem_cons.mp h).2 (item :: done) (show _ < k by omega)
    rw [toList_writeItems, List.cons_append, List.append_assoc, List.append_assoc, readItems, hv]
    simp only [skip_cons (c := ',') rfl]
    rw [readItems_gap (gap_lineBreak step depth), hi, List.reverse_cons, List.append_assoc,
      List.singleton_append]

theorem readsBack_array {items : List Json} (h : ∀ v ∈ items, ReadsBack v) :
    ReadsBack (.array items) := by
  intro step depth fuel rest hf hr
  cases items with
  | nil =>
    rw [write]
    rfl
  | cons item items =>
    have hw : (write step depth (.array (item :: items))).toList =
        '[' :: ((lineBreak step (depth + 1)).toList ++ ((write step (depth + 1) item).toList ++
          ((writeItems step (depth + 1) items).toList ++ ((lineBreak step depth).toList ++ [']'])))) := by
      rw [write]
      simp only [String.toList_append, List.append_assoc]
      rfl
    rw [hw] at hf ⊢
    simp only [List.length_cons, List.length_append, toList_lineBreak] at hf
    have hi := readItems_write h step (depth + 1) depth [] rest (show _ < fuel - 1 by omega)
    have hk : fuel - 1 + 1 = fuel := by omega
    obtain ⟨c, cs, hc, hg, hb⟩ := head_write step (depth + 1) item
    simp only [List.cons_append, List.append_assoc, List.nil_append]
    rw [hk, hc, List.cons_append] at hi
    rw [readValue, skip_cons rfl]
    simp only [skip_gap (gap_lineBreak step (depth + 1)), hc, List.cons_append, skip_cons hg]
    split
    · exact absurd (List.cons.inj ‹_›).1 hb
    · exact hi

theorem toList_writeFields (step depth : Nat) (name : String) (value : Json)
    (fields : List (String × Json)) :
    (writeFields step depth ((name, value) :: fields)).toList =
      ',' :: ((lineBreak step depth).toList ++ ((writeText name).toList ++ (':' :: ' ' ::
        ((write step depth value).toList ++ (writeFields step depth fields).toList)))) := by
  rw [writeFields]
  simp only [String.toList_append, List.append_assoc]
  rfl

theorem readFields_name {fuel : Nat} {cs tail rest : List Char} {value : Json} {c : Char}
    (hv : readValue fuel cs = some (value, tail)) (ht : skip tail = c :: rest) (done : Table Json)
    (name : String) :
    (c = ',' → readFields (fuel + 1) done ((writeText name).toList ++ (':' :: ' ' :: cs)) =
      readFields fuel (done.put name value) rest) ∧
    (c = '\x7d' → readFields (fuel + 1) done ((writeText name).toList ++ (':' :: ' ' :: cs)) =
      some (.object (done.put name value), rest)) := by
  obtain ⟨body, hw, hs⟩ := readText_writeText name (':' :: ' ' :: cs)
  have hg : ∀ c ∈ [' '], isGap c = true := by simp [isGap]
  have hb : readValue fuel (' ' :: cs) = some (value, tail) := (readValue_gap hg fuel cs).trans hv
  rw [hw, List.cons_append, readFields, skip_cons rfl]
  simp only [hs, skip_cons (show isGap ':' = false from rfl), hb, ht]
  constructor
  · rintro rfl
    rfl
  · rintro rfl
    rfl

theorem not_mem_of_nodup {name : String} {value : Json} {done fields : Table Json}
    (h : ((done ++ (name, value) :: fields).map Prod.fst).Nodup) : name ∉ done.map Prod.fst := by
  rw [List.map_append] at h
  exact fun hm => List.disjoint_of_nodup_append h hm List.mem_cons_self

theorem readFields_write {name : String} {value : Json} {fields : List (String × Json)}
    (h : ∀ entry ∈ (name, value) :: fields, ReadsBack entry.2) (step depth outer : Nat) {fuel : Nat}
    {done : Table Json} (hd : ((done ++ (name, value) :: fields).map Prod.fst).Nodup)
    (rest : List Char)
    (hf : (write step depth value).toList.length + (writeFields step depth fields).toList.length <
      fuel) :
    readFields (fuel + 1) done ((writeText name).toList ++ (':' :: ' ' ::
      ((write step depth value).toList ++ ((writeFields step depth fields).toList ++
        ((lineBreak step outer).toList ++ '\x7d' :: rest))))) =
      some (.object (done ++ (name, value) :: fields), rest) := by
  induction fields generalizing name value fuel done with
  | nil =>
    obtain ⟨k, rfl⟩ := Nat.exists_eq_add_one_of_ne_zero (Nat.ne_zero_of_lt hf)
    have hb : ReadsBack value := h (name, value) List.mem_cons_self
    have hv := hb step depth k ((lineBreak step outer).toList ++ '\x7d' :: rest) (by omega)
      (endsNumber_lineBreak step outer)
    have ht := (skip_gap (gap_lineBreak step outer) ('\x7d' :: rest)).trans (skip_cons rfl rest)
    rw [writeFields, String.toList_empty, List.nil_append, (readFields_name hv ht done name).2 rfl,
      Table.put_of_not_mem (not_mem_of_nodup hd)]
  | cons entry fields ih =>
    obtain ⟨next, other⟩ := entry
    obtain ⟨k, rfl⟩ := Nat.exists_eq_add_one_of_ne_zero (Nat.ne_zero_of_lt hf)
    rw [toList_writeFields] at hf
    simp only [List.length_cons, List.length_append] at hf
    have hb : ReadsBack value := h (name, value) List.mem_cons_self
    have hv := hb step depth k (',' :: ((lineBreak step depth).toList ++
      ((writeText next).toList ++ (':' :: ' ' :: ((write step depth other).toList ++
        ((writeFields step depth fields).toList ++ ((lineBreak step outer).toList ++ '\x7d' :: rest)))))))
      (by omega) endsNumber_comma
    have hput := Table.put_of_not_mem (not_mem_of_nodup hd) value
    rw [List.append_cons] at hd
    have hi := ih (List.forall_mem_cons.mp h).2 hd (show _ < k by omega)
    rw [toList_writeFields]
    simp only [List.cons_append, List.append_assoc]
    rw [(readFields_name hv (skip_cons rfl _) done name).1 rfl, hput,
      readFields_gap (gap_lineBreak step depth), hi, List.append_assoc, List.singleton_append]

theorem readsBack_object {fields : List (String × Json)} (hd : (fields.map Prod.fst).Nodup)
    (h : ∀ entry ∈ fields, ReadsBack entry.2) : ReadsBack (.object fields) := by
  intro step depth fuel rest hf hr
  cases fields with
  | nil =>
    rw [write]
    rfl
  | cons entry fields =>
    obtain ⟨name, value⟩ := entry
    have hw : (write step depth (.object ((name, value) :: fields))).toList =
        '\x7b' :: ((lineBreak step (depth + 1)).toList ++ ((writeText name).toList ++ (':' :: ' ' ::
          ((write step (depth + 1) value).toList ++ ((writeFields step (depth + 1) fields).toList ++
            ((lineBreak step depth).toList ++ ['\x7d'])))))) := by
      rw [write]
      simp only [String.toList_append, List.append_assoc]
      rfl
    rw [hw] at hf ⊢
    simp only [List.length_cons, List.length_append, toList_lineBreak] at hf
    have hd' : ((([] : Table Json) ++ (name, value) :: fields).map Prod.fst).Nodup := hd
    have hi := readFields_write h step (depth + 1) depth hd' rest (show _ < fuel - 1 by omega)
    have hk : fuel - 1 + 1 = fuel := by omega
    obtain ⟨body, hc, -⟩ := readText_writeText name []
    simp only [List.cons_append, List.append_assoc, List.nil_append]
    rw [hk, hc, List.cons_append] at hi
    rw [readValue, skip_cons rfl]
    simp only [skip_gap (gap_lineBreak step (depth + 1)), hc, List.cons_append,
      skip_cons (show isGap '"' = false from rfl)]
    exact hi

theorem areShort_iff {items : List Json} :
    areShort items = true ↔ ∀ v ∈ items, v.isShort = true := by
  induction items with
  | nil => simp [areShort]
  | cons item items ih => rw [areShort, Bool.and_eq_true, ih, List.forall_mem_cons]

theorem haveShort_iff {fields : List (String × Json)} :
    haveShort fields = true ↔ ∀ entry ∈ fields, entry.2.isShort = true := by
  induction fields with
  | nil => simp [haveShort]
  | cons field fields ih => rw [haveShort, Bool.and_eq_true, ih, List.forall_mem_cons]

/-- Every document that has no name twice, and no integer that is too long, is read back as it was
written. -/
theorem readsBack_of_proper {v : Json} (h : Proper v) (hs : v.isShort = true) : ReadsBack v := by
  induction h with
  | null =>
    intro step depth fuel rest hf hr
    rw [write]
    rfl
  | truth b =>
    intro step depth fuel rest hf hr
    rw [write]
    cases b <;> rfl
  | integer n =>
    rw [isShort] at hs
    exact readsBack_integer hs
  | real h => exact readsBack_real h
  | text s => exact readsBack_text s
  | @array items h ih =>
    rw [isShort] at hs
    exact readsBack_array fun v hv => ih v hv (areShort_iff.mp hs v hv)
  | @object fields hd h ih =>
    rw [isShort] at hs
    exact readsBack_object hd fun entry he => ih entry he (haveShort_iff.mp hs entry he)

/-- Parsing undoes rendering. -/
theorem parse?_render {v : Json} (h : Proper v) (hs : v.isShort = true) (step : Nat) :
    parse? (render step v) = some v := by
  have hr := readsBack_of_proper h hs step 0 (2 * (render step v).toList.length + 1) []
    (by rw [render]; omega) (by rintro c ⟨⟩)
  rw [List.append_nil, ← render] at hr
  rw [parse?, hr]
  rfl

end SyntaxQuery.Json
