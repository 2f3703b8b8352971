import SyntaxQuery.Json.Printer
import SyntaxQuery.Json.Reader

namespace SyntaxQuery.Json

open SyntaxQuery.Text

namespace Reader

def units (c : Char) : List Nat :=
  if c.toNat < 0x10000 then [c.toNat]
  else [0xD800 + (c.toNat - 0x10000) / 0x400, 0xDC00 + (c.toNat - 0x10000) % 0x400]

theorem toNat_cases (c : Char) : c.toNat < 0xD800 ∨ 0xDFFF < c.toNat ∧ c.toNat < 0x110000 :=
  c.valid

theorem hexValue?_hexDigit : ∀ n < 16, hexValue? (hexDigit n) = some n := by
  decide

theorem readText_escapeUnit {n : Nat} (h : n < 0x10000) (done : List Nat) (rest : List Char) :
    readText done (escapeUnit n ++ rest) = readText (n :: done) rest := by
  have hd (k : Nat) : hexValue? (hexDigit (k % 16)) = some (k % 16) :=
    hexValue?_hexDigit _ (Nat.mod_lt _ (by decide))
  have hu : unit? (hexDigit (n / 16 / 16 / 16 % 16)) (hexDigit (n / 16 / 16 % 16))
      (hexDigit (n / 16 % 16)) (hexDigit (n % 16)) = some n := by
    rw [unit?]
    simp only [List.mapM_cons, List.mapM_nil, hd]
    refine congrArg some ?_
    show 16 * (16 * (16 * (16 * 0 + n / 16 / 16 / 16 % 16) + n / 16 / 16 % 16) + n / 16 % 16) +
      n % 16 = n
    omega
  show readText done ('\\' :: 'u' :: hexDigit (n / 16 / 16 / 16 % 16) ::
    hexDigit (n / 16 / 16 % 16) :: hexDigit (n / 16 % 16) :: hexDigit (n % 16) :: rest) = _
  rw [readText, hu]

theorem readText_escaped {c e : Char} (h : escaped? c = some e) (done : List Nat)
    (rest : List Char) : readText done ('\\' :: c :: rest) = readText (e.toNat :: done) rest := by
  have hu : c ≠ 'u' := by
    rintro rfl
    cases h
  rw [readText.eq_4, h]
  · exact fun _ _ _ _ _ he => absurd he hu

theorem readText_plain {c : Char} (hq : c ≠ '"') (hb : c ≠ '\\') (hs : 0x20 ≤ c.toNat)
    (done : List Nat) (rest : List Char) :
    readText done (c :: rest) = readText (c.toNat :: done) rest := by
  rw [readText.eq_5 _ _ _ hq (fun _ _ _ _ _ he _ => hb he) (fun _ _ he _ => hb he), if_neg]
  rw [Bool.or_eq_true, decide_eq_true_eq, decide_eq_true_eq, not_or]
  exact ⟨Nat.not_lt.mpr hs, hb⟩

theorem readText_escapeChar (c : Char) (done : List Nat) (rest : List Char) :
    readText done (escapeChar c ++ rest) = readText ((units c).reverse ++ done) rest := by
  have hone (h : c.toNat < 0x10000) :
      readText ((units c).reverse ++ done) rest = readText (c.toNat :: done) rest := by
    rw [units, if_pos h]
    rfl
  have hescape (e : Char) (h : escaped? e = some c) (hc : c.toNat < 0x10000) :
      readText done (['\\', e] ++ rest) = readText ((units c).reverse ++ done) rest := by
    rw [hone hc]
    exact readText_escaped h done rest
  rw [escapeChar]
  split
  · rename_i h
    rw [Bool.or_eq_true, decide_eq_true_eq, decide_eq_true_eq] at h
    obtain rfl | rfl := h
    · exact hescape '"' rfl (by decide)
    · exact hescape '\\' rfl (by decide)
  rename_i h
  rw [Bool.or_eq_true, decide_eq_true_eq, decide_eq_true_eq, not_or] at h
  split
  · subst_vars
    exact hescape 'n' rfl (by decide)
  split
  · subst_vars
    exact hescape 'r' rfl (by decide)
  split
  · subst_vars
    exact hescape 't' rfl (by decide)
  split
  · subst_vars
    exact hescape 'b' rfl (by decide)
  split
  · subst_vars
    exact hescape 'f' rfl (by decide)
  split
  · rename_i hp
    rw [Bool.and_eq_true, decide_eq_true_eq, decide_eq_true_eq] at hp
    have hl : 0x20 ≤ c.toNat := hp.1
    have hu : c.toNat ≤ 0x7E := hp.2
    rw [hone (by omega)]
    exact readText_plain h.1 h.2 hl done rest
  split
  · rename_i hc
    rw [hone hc]
    exact readText_escapeUnit hc done rest
  · rename_i hc
    have hv := toNat_cases c
    rw [units, if_neg hc, List.append_assoc, readText_escapeUnit (by omega),
      readText_escapeUnit (by omega)]
    rfl

theorem joinUnits_units (c : Char) (rest : List Nat) :
    joinUnits (units c ++ rest) = c :: joinUnits rest := by
  have hv := toNat_cases c
  rw [units]
  split
  · rw [List.singleton_append]
    cases rest with
    | nil => rw [joinUnits.eq_2, joinUnits.eq_1, Char.ofNat_toNat]
    | cons low rest =>
      have hn : ¬ (0xD800 ≤ c.toNat ∧ c.toNat < 0xDC00) := by omega
      rw [joinUnits, if_neg, Char.ofNat_toNat]
      simp only [isHighHalf, isLowHalf, Bool.and_eq_true, decide_eq_true_eq]
      exact fun h => hn h.1
  · rw [List.cons_append, List.singleton_append, joinUnits, if_pos]
    · have he : 0x10000 + (0xD800 + (c.toNat - 0x10000) / 0x400 - 0xD800) * 0x400 +
          (0xDC00 + (c.toNat - 0x10000) % 0x400 - 0xDC00) = c.toNat := by
        omega
      rw [he, Char.ofNat_toNat]
    · simp only [isHighHalf, isLowHalf, Bool.and_eq_true, decide_eq_true_eq]
      omega

theorem joinUnits_flatMap (cs : List Char) : joinUnits (cs.flatMap units) = cs := by
  induction cs with
  | nil => rfl
  | cons c cs ih => rw [List.flatMap_cons, joinUnits_units, ih]

theorem readText_flatMap (cs : List Char) (done : List Nat) (rest : List Char) :
    readText done (cs.flatMap escapeChar ++ '"' :: rest) =
      some (String.ofList (joinUnits (done.reverse ++ cs.flatMap units)), rest) := by
  induction cs generalizing done with
  | nil =>
    rw [List.flatMap_nil, List.flatMap_nil, List.append_nil]
    exact readText.eq_2 done rest
  | cons c cs ih =>
    rw [List.flatMap_cons, List.append_assoc, readText_escapeChar, ih, List.flatMap_cons,
      List.reverse_append, List.reverse_reverse, List.append_assoc]

end Reader

/-- A text is read back behind its opening quote. -/
theorem readText_writeText (s : String) (rest : List Char) :
    ∃ cs, (writeText s).toList = '"' :: cs ∧
      Reader.readText [] (cs ++ rest) = some (s, rest) := by
  refine ⟨s.toList.flatMap escapeChar ++ ['"'], ?_, ?_⟩
  · rw [writeText, String.toList_ofList]
    rfl
  · rw [List.append_assoc]
    refine (Reader.readText_flatMap s.toList [] rest).trans ?_
    rw [List.reverse_nil, List.nil_append, Reader.joinUnits_flatMap, String.ofList_toList]

end SyntaxQuery.Json
