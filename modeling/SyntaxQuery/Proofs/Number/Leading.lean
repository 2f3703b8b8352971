import Mathlib.Data.List.DropRight
import Mathlib.Data.Nat.Digits.Defs
import SyntaxQuery.Proofs.Number.Decimal

namespace SyntaxQuery.Number

open SyntaxQuery.Text

variable {c : Char} {cs ds rest part : List Char} {k : Int}

def figure (ds : List Char) : Nat :=
  Nat.ofDigits 10 (ds.reverse.map fun c => (digitValue? c).getD 0)

inductive IsSign : List Char → Bool → Prop where
  | absent : IsSign [] false
  | plus : IsSign ['+'] false
  | minus : IsSign ['-'] true

/-- A text that is an integer: blanks, a sign or none, and at least one digit. -/
inductive Denotes : List Char → Int → Prop where
  | integer {blanks sign ds : List Char} {negative : Bool} (hb : ∀ c ∈ blanks, isBlank c = true)
      (hs : IsSign sign negative) (hd : ∀ c ∈ ds, isDigit c = true) (hne : ds ≠ []) :
      Denotes (blanks ++ (sign ++ ds)) (withSign negative (figure ds))

/-- Of the beginnings of a text that are integers, the longest one is this integer. -/
def LeadsWith (cs : List Char) (k : Int) : Prop :=
  ∃ part, part <+: cs ∧ Denotes part k ∧
    ∀ other j, other <+: cs → Denotes other j → other.length ≤ part.length

theorem isDigit_cases (h : isDigit c = true) : ∃ code ∈ zeros, ∃ d < 10, c.toNat = code + d := by
  rw [isDigit, digitValue?, Option.isSome_map, List.find?_isSome] at h
  obtain ⟨code, hz, hc⟩ := h
  rw [Bool.and_eq_true, decide_eq_true_iff, decide_eq_true_iff] at hc
  exact ⟨code, hz, c.toNat - code, by omega, by omega⟩

theorem not_blank_code : ∀ code ∈ zeros, ∀ d < 10,
    (inRanges spaceRanges (code + d) || inRanges [(0x1C, 0x1F)] (code + d)) = false := by
  decide +kernel

theorem not_blank_of_isDigit (h : isDigit c = true) : isBlank c = false := by
  obtain ⟨code, hz, d, hd, hc⟩ := isDigit_cases h
  rw [isBlank, isSpace, hc]
  exact not_blank_code code hz d hd

theorem isDigit_of_ascii (h : c.isDigit = true) : isDigit c = true := by
  rw [isDigit, digitValue?_of_isDigit h]
  rfl

theorem figure_cons (c : Char) (ds : List Char) :
    figure (c :: ds) = figure ds + 10 ^ ds.length * (digitValue? c).getD 0 := by
  rw [figure, List.reverse_cons, List.map_append, List.map_singleton, Nat.ofDigits_append,
    Nat.ofDigits_singleton, List.length_map, List.length_reverse]
  rfl

theorem ofDigits?_eq_figure (h : ∀ c ∈ ds, isDigit c = true) (n : Nat) :
    ofDigits? n ds = some (10 ^ ds.length * n + figure ds) := by
  induction ds generalizing n with
  | nil =>
    rw [ofDigits?, List.length_nil, pow_zero, Nat.one_mul]
    rfl
  | cons c ds ih =>
    obtain ⟨hc, hr⟩ := List.forall_mem_cons.mp h
    obtain ⟨d, hd⟩ := Option.isSome_iff_exists.mp hc
    rw [ofDigits?, hd, Option.bind_some, ih hr, figure_cons, hd, Option.getD_some, List.length_cons]
    congr 1
    ring

theorem figure_digits (n : Nat) : figure (digits n) = n := by
  have hd : ∀ c ∈ digits n, c.isDigit = true := fun c => isDigit_of_mem_digits
  have he := ofDigits?_eq_figure (fun c hc => isDigit_of_ascii (hd c hc)) 0
  rw [ofDigits?_of_isDigit hd, digits, Nat.ofDigitChars_ten_toDigits] at he
  simpa [digits] using he.symm

theorem denotes_decimal (n : Int) : Denotes (decimal n) n := by
  have hb : ∀ c ∈ ([] : List Char), isBlank c = true := List.forall_mem_nil _
  have hd : ∀ n, ∀ c ∈ digits n, isDigit c = true := fun n c hc =>
    isDigit_of_ascii (isDigit_of_mem_digits hc)
  cases n with
  | ofNat n =>
    have h := Denotes.integer hb .absent (hd n) Nat.toDigits_ne_nil
    rwa [figure_digits] at h
  | negSucc n =>
    have h := Denotes.integer hb .minus (hd (n + 1)) Nat.toDigits_ne_nil
    rwa [figure_digits] at h

theorem takeSign_append {sign : List Char} {negative : Bool} (hs : IsSign sign negative)
    (hd : ∀ c ∈ ds, isDigit c = true) (hne : ds ≠ []) (rest : List Char) :
    takeSign (sign ++ (ds ++ rest)) = (negative, ds ++ rest) := by
  cases hs with
  | absent =>
    obtain ⟨d, ds, rfl⟩ := List.exists_cons_of_ne_nil hne
    have hm : isDigit d = true := hd d List.mem_cons_self
    refine takeSign_of_ne ?_ ?_ (ds ++ rest)
    · rintro rfl
      exact absurd hm (by decide)
    · rintro rfl
      exact absurd hm (by decide)
  | plus => rfl
  | minus => rfl

theorem dropWhile_isBlank_append {blanks sign : List Char} {negative : Bool}
    (hb : ∀ c ∈ blanks, isBlank c = true) (hs : IsSign sign negative)
    (hd : ∀ c ∈ ds, isDigit c = true) (hne : ds ≠ []) (rest : List Char) :
    (blanks ++ (sign ++ (ds ++ rest))).dropWhile isBlank = sign ++ (ds ++ rest) := by
  rw [List.dropWhile_append_of_pos hb]
  cases hs with
  | absent =>
    obtain ⟨d, ds, rfl⟩ := List.exists_cons_of_ne_nil hne
    have hm : ¬ isBlank d = true := by
      rw [not_blank_of_isDigit (hd d List.mem_cons_self)]
      exact Bool.false_ne_true
    exact List.dropWhile_cons_of_neg hm
  | plus => rfl
  | minus => rfl

def behindDigits (cs : List Char) : List Char :=
  (takeSign (cs.dropWhile isBlank)).2.dropWhile isDigit

theorem leadingInteger?_eq (cs : List Char) :
    leadingInteger? cs =
      if leadingDigits cs = [] then none
      else some (withSign (takeSign (cs.dropWhile isBlank)).1 (figure (leadingDigits cs))) := by
  rw [leadingInteger?, leadingDigits]
  generalize takeSign (cs.dropWhile isBlank) = signed
  obtain ⟨negative, rest⟩ := signed
  have hd : ∀ c ∈ rest.takeWhile isDigit, isDigit c = true := fun c hc =>
    List.mem_takeWhile_imp hc
  dsimp only
  cases he : rest.takeWhile isDigit with
  | nil => rfl
  | cons d ds =>
    rw [he] at hd
    dsimp only
    rw [ofDigits?_eq_figure hd, if_neg (List.cons_ne_nil d ds), Nat.mul_zero, Nat.zero_add]
    rfl

theorem takeSign_cases (cs : List Char) :
    ∃ sign, IsSign sign (takeSign cs).1 ∧ cs = sign ++ (takeSign cs).2 := by
  rw [takeSign.eq_def]
  split
  · exact ⟨_, .minus, rfl⟩
  · exact ⟨_, .plus, rfl⟩
  · exact ⟨_, .absent, rfl⟩

theorem denotes_of_leadingInteger? (h : leadingInteger? cs = some k) :
    ∃ part, Denotes part k ∧ part ++ behindDigits cs = cs := by
  rw [leadingInteger?_eq] at h
  split at h
  · cases h
  · next hne =>
    obtain rfl := Option.some.inj h
    obtain ⟨sign, hs, he⟩ := takeSign_cases (cs.dropWhile isBlank)
    have hb : ∀ c ∈ cs.takeWhile isBlank, isBlank c = true := fun c hc =>
      List.mem_takeWhile_imp hc
    have hd : ∀ c ∈ leadingDigits cs, isDigit c = true := fun c hc => List.mem_takeWhile_imp hc
    refine ⟨_, .integer hb hs hd hne, ?_⟩
    calc cs.takeWhile isBlank ++ (sign ++ leadingDigits cs) ++ behindDigits cs
        = cs.takeWhile isBlank ++ (sign ++ (leadingDigits cs ++ behindDigits cs)) := by
          rw [List.append_assoc, List.append_assoc]
      _ = cs.takeWhile isBlank ++ (sign ++ (takeSign (cs.dropWhile isBlank)).2) := by
          rw [leadingDigits, behindDigits, List.takeWhile_append_dropWhile]
      _ = cs := by rw [← he, List.takeWhile_append_dropWhile]

namespace Denotes

theorem takeSign_eq (h : Denotes part k) (rest : List Char) :
    ∃ ds negative, takeSign ((part ++ rest).dropWhile isBlank) = (negative, ds ++ rest) ∧
      (∀ c ∈ ds, isDigit c = true) ∧ ds ≠ [] ∧ k = withSign negative (figure ds) := by
  obtain ⟨hb, hs, hd, hne⟩ := h
  refine ⟨_, _, ?_, hd, hne, rfl⟩
  rw [List.append_assoc, List.append_assoc, dropWhile_isBlank_append hb hs hd hne,
    takeSign_append hs hd hne]

theorem behindDigits_append (h : Denotes part k) (rest : List Char) :
    behindDigits (part ++ rest) = rest.dropWhile isDigit := by
  obtain ⟨ds, negative, he, hd, -⟩ := h.takeSign_eq rest
  rw [behindDigits, he, List.dropWhile_append_of_pos hd]

theorem leadingInteger?_append (h : Denotes part k) (hr : rest.takeWhile isDigit = []) :
    leadingInteger? (part ++ rest) = some k := by
  obtain ⟨ds, negative, he, hd, hne, rfl⟩ := h.takeSign_eq rest
  have hl : leadingDigits (part ++ rest) = ds := by
    rw [leadingDigits, he, List.takeWhile_append_of_pos hd, hr, List.append_nil]
  rw [leadingInteger?_eq, hl, if_neg hne, he]

theorem append_digits (h : Denotes part k) {more : List Char} (hm : ∀ c ∈ more, isDigit c = true) :
    ∃ j, Denotes (part ++ more) j := by
  obtain ⟨hb, hs, hd, hne⟩ := h
  rw [List.append_assoc, List.append_assoc]
  refine ⟨_, .integer hb hs (List.forall_mem_append.mpr ⟨hd, hm⟩) ?_⟩
  exact List.append_ne_nil_of_left_ne_nil hne _

theorem exists_longest (h : Denotes part k) (rest : List Char) :
    ∃ j, Denotes (part ++ rest.takeWhile isDigit) j ∧ leadingInteger? (part ++ rest) = some j := by
  obtain ⟨j, hj⟩ := h.append_digits fun c hc => List.mem_takeWhile_imp (l := rest) hc
  have hn : (rest.dropWhile isDigit).takeWhile isDigit = [] := by
    have ht := List.takeWhile_append_dropWhile (p := isDigit) (l := rest.dropWhile isDigit)
    rwa [List.dropWhile_idempotent, List.append_left_eq_self] at ht
  refine ⟨j, hj, ?_⟩
  have hl := hj.leadingInteger?_append hn
  rwa [List.append_assoc, List.takeWhile_append_dropWhile] at hl

end Denotes

/-- The integer that is read at the beginning of a text is the longest there. -/
theorem leadsWith_iff : LeadsWith cs k ↔ leadingInteger? cs = some k := by
  constructor
  · rintro ⟨part, ⟨rest, rfl⟩, hd, hl⟩
    obtain ⟨j, hj, -⟩ := hd.exists_longest rest
    have hp : part ++ rest.takeWhile isDigit <+: part ++ rest :=
      (List.prefix_append_right_inj part).mpr (List.takeWhile_prefix _)
    have hn := hl _ j hp hj
    rw [List.length_append] at hn
    exact hd.leadingInteger?_append (List.eq_nil_of_length_eq_zero (by omega))
  · intro h
    obtain ⟨part, hd, he⟩ := denotes_of_leadingInteger? h
    refine ⟨part, ⟨_, he⟩, hd, ?_⟩
    rintro other j ⟨rest, rfl⟩ ho
    have hl := congrArg List.length he
    have hr := List.length_dropWhile_le isDigit rest
    rw [ho.behindDigits_append, List.length_append, List.length_append] at hl
    omega

theorem leadingInteger?_eq_none_iff :
    leadingInteger? cs = none ↔ ∀ part k, part <+: cs → ¬ Denotes part k := by
  constructor
  · rintro h part k ⟨rest, rfl⟩ hd
    obtain ⟨j, -, hj⟩ := hd.exists_longest rest
    rw [h] at hj
    cases hj
  · intro h
    cases hk : leadingInteger? cs with
    | none => rfl
    | some k =>
      obtain ⟨part, hd, he⟩ := denotes_of_leadingInteger? hk
      exact absurd hd (h part k ⟨_, he⟩)

theorem leadingInteger?_decimal (n : Int) : leadingInteger? (decimal n) = some n := by
  have hn : ([] : List Char).takeWhile isDigit = [] := rfl
  have h := (denotes_decimal n).leadingInteger?_append hn
  rwa [List.append_nil] at h

end SyntaxQuery.Number
