import Mathlib.Tactic.IntervalCases
import SyntaxQuery.Text.Utf8

namespace SyntaxQuery.Text

theorem toList_loop (bytes : ByteArray) (i : Nat) (done : List UInt8) :
    ByteArray.toList.loop bytes i done = done.reverse ++ bytes.data.toList.drop i := by
  fun_induction ByteArray.toList.loop bytes i done with
  | case1 i done h ih =>
    have hi : i < bytes.data.toList.length := h
    rw [ih, List.drop_eq_getElem_cons hi, List.reverse_cons, List.append_assoc]
    simp [ByteArray.get!, h]
  | case2 i done h =>
    rw [List.drop_eq_nil_of_le (not_lt.mp h), List.append_nil]

theorem octets_eq (s : String) : octets s = s.toList.flatMap String.utf8EncodeChar := by
  have h : s.toUTF8 = (s.toList.flatMap String.utf8EncodeChar).toByteArray := by
    conv_lhs => rw [← String.ofList_toList (s := s)]
    rw [String.toUTF8_eq_toByteArray, String.toByteArray_ofList, List.utf8Encode]
  rw [octets, h, ByteArray.toList, toList_loop, List.reverse_nil, List.nil_append, List.drop_zero,
    List.toList_data_toByteArray]

variable {rest : List UInt8}

theorem toNat_octet {k : Nat} (h : k < 256) : (UInt8.ofNat k).toNat = k :=
  UInt8.toNat_ofNat_of_lt' h

theorem run_single {k : Nat} (h : k < 0x80) :
    Reading.run .between (UInt8.ofNat k :: rest) = some (Char.ofNat k) :: Reading.run .between rest := by
  rw [Reading.run, Reading.step, Reading.first, toNat_octet (by omega), lead?, if_pos h]
  rfl

theorem run_lead {k : Nat} (hk : k < 256) {lead : Lead} (h : lead? k = some lead)
    (ht : lead.tails ≠ 0) :
    Reading.run .between (UInt8.ofNat k :: rest) = Reading.run (.within lead) rest := by
  rw [Reading.run, Reading.step, Reading.first, toNat_octet hk, h]
  simp only [if_neg ht]
  rfl

variable {t low high bits : Nat}

theorem run_tail (ht : t < 64) (hl : low ≤ t + 128) (hh : t + 128 ≤ high) (tails : Nat) :
    Reading.run (.within ⟨tails + 2, low, high, bits⟩) (UInt8.ofNat (t + 128) :: rest) =
      Reading.run (.within ⟨tails + 1, 0x80, 0xBF, bits * 64 + t⟩) rest := by
  rw [Reading.run, Reading.step, toNat_octet (by omega), if_pos (by simp [hl, hh]),
    if_neg (by simp), Nat.add_sub_cancel]
  rfl

theorem run_last (ht : t < 64) (hl : low ≤ t + 128) (hh : t + 128 ≤ high) :
    Reading.run (.within ⟨1, low, high, bits⟩) (UInt8.ofNat (t + 128) :: rest) =
      some (Char.ofNat (bits * 64 + t)) :: Reading.run .between rest := by
  rw [Reading.run, Reading.step, toNat_octet (by omega), if_pos (by simp [hl, hh]), if_pos rfl,
    Nat.add_sub_cancel]
  rfl

theorem lead?_one {k : Nat} (h2 : 2 ≤ k) (hk : k < 32) :
    lead? (k + 192) = some ⟨1, 0x80, 0xBF, k⟩ := by
  interval_cases k <;> rfl

theorem lead?_two {k t : Nat} (hk : k < 16) (ht : t < 64) (h0 : k = 0 → 32 ≤ t)
    (hs : k = 13 → t < 32) :
    ∃ low high, lead? (k + 224) = some ⟨2, low, high, k⟩ ∧ low ≤ t + 128 ∧ t + 128 ≤ high := by
  interval_cases k <;> exact ⟨_, _, rfl, by omega, by omega⟩

theorem lead?_three {k t : Nat} (hk : k < 5) (ht : t < 64) (h0 : k = 0 → 16 ≤ t)
    (hm : k = 4 → t < 16) :
    ∃ low high, lead? (k + 240) = some ⟨3, low, high, k⟩ ∧ low ≤ t + 128 ∧ t + 128 ≤ high := by
  interval_cases k <;> exact ⟨_, _, rfl, by omega, by omega⟩

/-- A character is read from its octets. -/
theorem run_utf8EncodeChar (c : Char) (rest : List UInt8) :
    Reading.run .between (String.utf8EncodeChar c ++ rest) = some c :: Reading.run .between rest := by
  have hv : c.toNat < 0xD800 ∨ 0xDFFF < c.toNat ∧ c.toNat < 0x110000 := c.valid
  have hc : some c = some (Char.ofNat c.toNat) := by rw [Char.ofNat_toNat]
  have ht : c.val.toNat = c.toNat := rfl
  rw [hc, String.utf8EncodeChar]
  simp only [ht]
  generalize c.toNat = n at hv
  have hm : n % 64 < 64 := Nat.mod_lt n (by decide)
  have hm1 : n / 64 % 64 < 64 := Nat.mod_lt _ (by decide)
  have hm2 : n / 4096 % 64 < 64 := Nat.mod_lt _ (by decide)
  split
  · rw [List.singleton_append, run_single (by omega)]
  split
  · have he : n / 64 % 32 * 64 + n % 64 = n := by omega
    rw [List.cons_append, List.singleton_append,
      run_lead (by omega) (lead?_one (by omega) (by omega)) one_ne_zero,
      run_last hm (by omega) (by omega), he]
  split
  · have he : (n / 4096 % 16 * 64 + n / 64 % 64) * 64 + n % 64 = n := by omega
    obtain ⟨low, high, hlead, hl, hh⟩ := lead?_two (k := n / 4096 % 16) (by omega) hm1
      (by omega) (by omega)
    rw [List.cons_append, List.cons_append, List.singleton_append,
      run_lead (by omega) hlead two_ne_zero, run_tail hm1 hl hh, run_last hm (by omega) (by omega), he]
  · have he : ((n / 262144 % 8 * 64 + n / 4096 % 64) * 64 + n / 64 % 64) * 64 + n % 64 = n := by omega
    obtain ⟨low, high, hlead, hl, hh⟩ := lead?_three (k := n / 262144 % 8) (by omega) hm2
      (by omega) (by omega)
    rw [List.cons_append, List.cons_append, List.cons_append, List.singleton_append,
      run_lead (by omega) hlead three_ne_zero, run_tail hm2 hl hh, run_tail hm1 (by omega) (by omega),
      run_last hm (by omega) (by omega), he]

/-- Reading the octets of a text gives the text. -/
theorem decode?_octets (s : String) : decode? (octets s) = some s := by
  have h (cs : List Char) :
      Reading.run .between (cs.flatMap String.utf8EncodeChar) = cs.map some := by
    induction cs with
    | nil => rfl
    | cons c cs ih => rw [List.flatMap_cons, run_utf8EncodeChar, ih, List.map_cons]
  have hm (cs : List Char) : (cs.map some).mapM id = some cs := by
    induction cs with
    | nil => rfl
    | cons c cs ih => rw [List.map_cons, List.mapM_cons, ih]; rfl
  rw [decode?, decode, octets_eq, h, hm, Option.map_some, String.ofList_toList]

end SyntaxQuery.Text
