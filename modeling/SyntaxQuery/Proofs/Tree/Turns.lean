import Mathlib.Logic.Function.Iterate
import SyntaxQuery.Proofs.Tree.PostOrder

namespace SyntaxQuery.Tree

namespace Visit

/-- The stack behind one turn of a traversal. A node that is entered is put back to be left, and its
children are put on top of it, the last one first. -/
def unwind : List Visit → List Visit
  | [] => []
  | enter n :: stack =>
    n.children.reverse.foldl (fun stack c => enter c :: stack) (leave n :: stack)
  | leave _ :: stack => stack

theorem unwind_enter (n : Located) (stack : List Visit) :
    unwind (enter n :: stack) = n.children.map enter ++ leave n :: stack := by
  rw [unwind, List.foldl_reverse, List.foldr_cons_eq_append]

theorem total_unwind (stack : List Visit) : total (unwind stack) = total stack - 1 := by
  cases stack with
  | nil => rfl
  | cons v stack =>
    cases v with
    | enter n =>
      obtain ⟨⟨parent, nodes⟩, trail⟩ := n
      rw [unwind_enter, Located.children, total_append, total_enter_childrenFrom]
      simp only [total, weight, Node.children, Node.size]
      omega
    | leave n => simp [unwind, total, weight]

theorem total_eq_zero {stack : List Visit} : total stack = 0 ↔ stack = [] := by
  cases stack with
  | nil => simp [total]
  | cons v stack =>
    cases v with
    | enter n =>
      obtain ⟨⟨parent, nodes⟩, trail⟩ := n
      simp [total, weight, Node.size]
    | leave n => simp [total, weight]

theorem total_iterate_unwind (k : Nat) (stack : List Visit) :
    total (unwind^[k] stack) = total stack - k := by
  induction k with
  | zero => rfl
  | succ k ih => rw [Function.iterate_succ_apply', total_unwind, ih, Nat.sub_sub]

/-- A stack is worked off after as many turns as it asks for steps, and not before. -/
theorem iterate_unwind_eq_nil {k : Nat} {stack : List Visit} :
    unwind^[k] stack = [] ↔ total stack ≤ k := by
  rw [← total_eq_zero, total_iterate_unwind, Nat.sub_eq_zero_iff_le]

end Visit

section

variable {m : Type → Type} [Monad m]

def selectTop (p : Located → m Bool) : List Visit × List Located → m (List Located)
  | (.leave n :: _, selected) => do return if ← p n then selected ++ [n] else selected
  | (_, selected) => pure selected

def turn (p : Located → m Bool) (state : List Visit × List Located) :
    m (List Visit × List Located) := do
  return (Visit.unwind state.1, ← selectTop p state)

def turns (p : Located → m Bool) : Nat → List Visit × List Located → m (List Visit × List Located)
  | 0, state => pure state
  | k + 1, state => do turns p k (← turn p state)

variable [LawfulMonad m] (p : Located → m Bool)

theorem stack_turns (k : Nat) (stack : List Visit) (selected : List Located) :
    Prod.fst <$> turns p k (stack, selected) =
      (fun _ => Visit.unwind^[k] stack) <$> turns p k (stack, selected) := by
  induction k generalizing stack selected with
  | zero => simp [turns]
  | succ k ih =>
    simp only [turns, turn, bind_assoc, pure_bind, map_bind]
    congr 1
    funext chosen
    rw [ih, Function.iterate_succ_apply]

theorem turns_eq (k : Nat) (stack : List Visit) (selected : List Located)
    (h : Visit.total stack ≤ k) :
    turns p k (stack, selected) = do
      let found ← gatherFrom (fun n => do return if ← p n then [n] else []) stack
      return ([], selected ++ found) := by
  induction k generalizing stack selected with
  | zero =>
    obtain rfl := Visit.total_eq_zero.mp (Nat.le_zero.mp h)
    simp [turns, gatherFrom]
  | succ k ih =>
    have hs : Visit.total (Visit.unwind stack) ≤ k := by
      rw [Visit.total_unwind]
      exact Nat.sub_le_of_le_add h
    simp only [turns, turn, bind_assoc, pure_bind]
    cases stack with
    | nil =>
      simp only [selectTop, pure_bind]
      rw [ih _ _ hs]
      rfl
    | cons v stack =>
      cases v with
      | enter n =>
        simp only [selectTop, pure_bind]
        rw [ih _ _ hs, Visit.unwind_enter, gatherFrom]
      | leave n =>
        simp only [selectTop, bind_assoc, pure_bind, gatherFrom]
        congr 1
        funext chosen
        rw [ih _ _ hs]
        cases chosen <;> simp [Visit.unwind]

def calls (nodes : List Located) : m (List (Located × Bool)) :=
  nodes.mapM fun n => do return (n, ← p n)

def chosen (calls : List (Located × Bool)) : List Located :=
  (calls.filter Prod.snd).map Prod.fst

theorem joinEach_eq_calls (nodes : List Located) :
    joinEach (fun n => do return if ← p n then [n] else []) nodes =
      chosen <$> calls p nodes := by
  induction nodes with
  | nil => simp [joinEach, calls, chosen]
  | cons n nodes ih =>
    rw [joinEach, ih, calls, calls, List.mapM_cons]
    simp only [bind_assoc, pure_bind, map_bind, map_pure, bind_map_left]
    congr 1
    funext b
    congr 1
    funext answers
    cases b <;> simp [chosen]

theorem descendAll_eq_calls (n : Located) : descendAll p n = chosen <$> calls p n.postOrder := by
  rw [descendAll, gather_eq, joinEach_eq_calls]

end

variable {σ : Type}

def noting (p : Located → StateM σ Bool) (n : Located) :
    StateM (List (Located × Bool) × σ) Bool := do
  let (noted, s) ← get
  let (b, s) := (p n).run s
  set (noted ++ [(n, b)], s)
  return b

theorem run_calls_cons (p : Located → StateM σ Bool) (n : Located) (nodes : List Located) (s : σ) :
    (calls p (n :: nodes)).run s =
      ((n, ((p n).run s).1) :: ((calls p nodes).run ((p n).run s).2).1,
        ((calls p nodes).run ((p n).run s).2).2) := by
  rw [calls, List.mapM_cons]
  rfl

theorem run_noting (p : Located → StateM σ Bool) (n : Located) (noted : List (Located × Bool))
    (s : σ) : (noting p n).run (noted, s) =
      (((p n).run s).1, (noted ++ [(n, ((p n).run s).1)], ((p n).run s).2)) := rfl

theorem run_calls_noting (p : Located → StateM σ Bool) (nodes : List Located)
    (noted : List (Located × Bool)) (s : σ) :
    (calls (noting p) nodes).run (noted, s) =
      (((calls p nodes).run s).1,
        (noted ++ ((calls p nodes).run s).1, ((calls p nodes).run s).2)) := by
  induction nodes generalizing noted s with
  | nil => exact congrArg (fun answers => (([], (answers, s)) : _ × _ × σ)) (List.append_nil _).symm
  | cons n nodes ih =>
    rw [run_calls_cons, run_calls_cons, run_noting]
    simp only [ih, List.append_assoc, List.singleton_append]

theorem fst_run_calls (p : Located → StateM σ Bool) (nodes : List Located) (s : σ) :
    ((calls p nodes).run s).1.map Prod.fst = nodes := by
  induction nodes generalizing s with
  | nil => rfl
  | cons n nodes ih =>
    rw [run_calls_cons]
    simp only [List.map_cons, ih]

/-- A traversal does what the recursion over a subtree does. Its loop ends: behind two turns for each
node the stack is worked off, and not before, whatever the predicate says or does. The predicate is
called on the nodes that the start holds and on no others, on each once, each behind all that it
holds, and the nodes are selected of which it was true, in this order. A predicate that notes its
calls has noted just these, and does what it does otherwise. -/
theorem descendAll_follows_postOrder {m : Type → Type} [Monad m] [LawfulMonad m] (n : Located) :
    n.postOrder = n.children.flatMap Located.postOrder ++ [n] ∧
      (∀ k, k ∈ n.postOrder ↔ n.Holds k) ∧ n.postOrder.Nodup ∧
      (∀ k, Visit.unwind^[k] [.enter n] = [] ↔ 2 * n.node.size ≤ k) ∧
      (∀ p : Located → m Bool,
        descendAll p n = chosen <$> calls p n.postOrder ∧
        ∀ k, Prod.fst <$> turns p k ([.enter n], []) =
            (fun _ => Visit.unwind^[k] [.enter n]) <$> turns p k ([.enter n], []) ∧
          (2 * n.node.size ≤ k →
            turns p k ([.enter n], []) = (([], ·)) <$> descendAll p n)) ∧
      ∀ {σ : Type} (p : Located → StateM σ Bool) (s : σ), ∃ noted s',
        (descendAll (noting p) n).run ([], s) = (chosen noted, (noted, s')) ∧
          noted.map Prod.fst = n.postOrder ∧ (descendAll p n).run s = (chosen noted, s') := by
  have ht : Visit.total [.enter n] = 2 * n.node.size := by simp [Visit.total, Visit.weight]
  refine ⟨n.postOrder_eq, fun k => Located.mem_postOrder, n.nodup_postOrder, fun k => ?_,
    fun p => ⟨descendAll_eq_calls p n, fun k => ⟨stack_turns p k _ _, fun hk => ?_⟩⟩,
    fun p s => ?_⟩
  · rw [Visit.iterate_unwind_eq_nil, ht]
  · rw [turns_eq p k _ _ (by omega), map_eq_pure_bind]
    rfl
  · refine ⟨_, ((calls p n.postOrder).run s).2, ?_, fst_run_calls p n.postOrder s, ?_⟩
    · rw [descendAll_eq_calls, StateT.run_map, run_calls_noting]
      rfl
    · rw [descendAll_eq_calls]
      rfl

def threeLevels : Node :=
  let node (kind : String) (children : List Node) : Node :=
    .mk { (default : Label) with kind } children
  node "a" [node "b" [node "c" []], node "d" []]

theorem descendAll_threeLevels :
    ((descendAll (fun _ => do modify (· + 1); return (← get) % 2 = 0 : Located → StateM Nat Bool)
        (.root threeLevels)).run 0).1.map Located.kind = ["b", "a"] ∧
      ∀ k, Visit.unwind^[k] [.enter (.root threeLevels)] = [] ↔ 8 ≤ k := by
  obtain ⟨-, -, -, hk, hc, -⟩ := descendAll_follows_postOrder (m := StateM Nat) (.root threeLevels)
  refine ⟨?_, hk⟩
  rw [(hc _).1]
  rfl

end SyntaxQuery.Tree
