import Mathlib.Algebra.Ring.Nat
import Mathlib.Data.List.Basic
import SyntaxQuery.Proofs.Text.Pieces

namespace SyntaxQuery.Text

/-- The lines of a text, each up to its line end. What stands behind the last line end is no line. -/
def lines (s : String) : List String :=
  (splitPieces '\n' s).dropLast

variable {separator : Char} {s : String} {texts : List String}

theorem length_splitPieces (separator : Char) (s : String) :
    (splitPieces separator s).length = s.toList.count separator + 1 := by
  rw [splitPieces, List.length_map, length_pieces]

theorem splitPieces_ne_nil (separator : Char) (s : String) : splitPieces separator s ≠ [] :=
  List.ne_nil_of_length_eq_add_one (length_splitPieces separator s)

theorem splitPieces_of_not_mem (h : separator ∉ s.toList) : splitPieces separator s = [s] := by
  rw [splitPieces, pieces_eq_splitOn, List.splitOn_eq_singleton h, List.map_singleton,
    String.ofList_toList]

/-- A line end makes lines of all the pieces before it. -/
theorem lines_append (s t : String) : lines (s ++ "\n" ++ t) = splitPieces '\n' s ++ lines t := by
  have hc : (s ++ "\n" ++ t).toList = s.toList ++ '\n' :: t.toList := by simp
  have hp : splitPieces '\n' (s ++ "\n" ++ t) = splitPieces '\n' s ++ splitPieces '\n' t := by
    rw [splitPieces, hc, pieces_eq_splitOn, List.splitOn_append_cons_self, List.map_append,
      ← pieces_eq_splitOn, ← pieces_eq_splitOn]
    rfl
  rw [lines, hp, List.dropLast_append_of_ne_nil (splitPieces_ne_nil _ t)]
  rfl

theorem lines_join (texts : List String) :
    lines (String.join (texts.map (· ++ "\n"))) = texts.flatMap (splitPieces '\n') := by
  induction texts with
  | nil => rfl
  | cons s texts ih => rw [List.map_cons, String.join_cons, lines_append, ih, List.flatMap_cons]

theorem length_flatMap_splitPieces (separator : Char) (texts : List String) :
    (texts.flatMap (splitPieces separator)).length =
      texts.length + (texts.map fun s => s.toList.count separator).sum := by
  induction texts with
  | nil => rfl
  | cons s texts ih =>
    rw [List.flatMap_cons, List.length_append, length_splitPieces, ih, List.map_cons, List.sum_cons,
      List.length_cons]
    omega

theorem length_flatMap_splitPieces_eq_iff :
    (texts.flatMap (splitPieces separator)).length = texts.length ↔
      ∀ s ∈ texts, separator ∉ s.toList := by
  rw [length_flatMap_splitPieces, Nat.add_eq_left, List.sum_eq_zero_iff_forall_eq_nat,
    List.forall_mem_map]
  simp only [List.count_eq_zero]

theorem flatMap_splitPieces_eq_iff :
    texts.flatMap (splitPieces separator) = texts ↔ ∀ s ∈ texts, separator ∉ s.toList := by
  constructor
  · intro h
    exact length_flatMap_splitPieces_eq_iff.mp (congrArg List.length h)
  · intro h
    have hs : ∀ s ∈ texts, splitPieces separator s = [s] := fun s hm =>
      splitPieces_of_not_mem (h s hm)
    rw [List.flatMap_congr hs, List.flatMap_singleton']

end SyntaxQuery.Text
