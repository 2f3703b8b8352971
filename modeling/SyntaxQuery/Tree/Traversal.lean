import SyntaxQuery.Tree.Located

namespace SyntaxQuery.Tree

variable {m : Type → Type} [Monad m] {α β : Type}

def joinEach (f : α → m (List β)) : List α → m (List β)
  | [] => pure []
  | a :: rest => do
    let bs ← f a
    let more ← joinEach f rest
    return bs ++ more

/-- A node on the stack of a traversal: its children are still to come, or all done. -/
inductive Visit where
  | enter (n : Located)
  | leave (n : Located)

namespace Visit

def weight : Visit → Nat
  | enter n => 2 * n.node.size
  | leave _ => 1

def total : List Visit → Nat
  | [] => 0
  | v :: stack => v.weight + total stack

theorem total_append (xs ys : List Visit) : total (xs ++ ys) = total xs + total ys := by
  induction xs with
  | nil => simp [total]
  | cons x xs ih => simp [total, ih, Nat.add_assoc]

theorem total_enter_childrenFrom (parent : Label) (trail : List Crumb) (before nodes : List Node) :
    total ((Located.childrenFrom parent trail before nodes).map enter) = 2 * Node.sizes nodes := by
  induction nodes generalizing before with
  | nil => simp [Located.childrenFrom, total, Node.sizes]
  | cons node after ih => simp [Located.childrenFrom, total, weight, Node.sizes, ih, Nat.mul_add]

theorem total_expand (n : Located) (stack : List Visit) :
    total (n.children.map enter ++ leave n :: stack) < total (enter n :: stack) := by
  obtain ⟨⟨parent, nodes⟩, trail⟩ := n
  simp only [Located.children, total_append, total_enter_childrenFrom, total, weight, Node.children,
    Node.size]
  omega

end Visit

/-- Works off a stack of nodes: a node is entered, then all that it holds is worked off, then the
function is called on it. -/
def gatherFrom (f : Located → m (List β)) : List Visit → m (List β)
  | [] => pure []
  | .leave n :: stack => do
    let bs ← f n
    let more ← gatherFrom f stack
    return bs ++ more
  | .enter n :: stack => gatherFrom f (n.children.map .enter ++ .leave n :: stack)
termination_by stack => Visit.total stack
decreasing_by
  · simp [Visit.total, Visit.weight]
  · exact Visit.total_expand n stack

/-- Calls a function on every node of a subtree, descendants before their ancestors and left before
right, and joins the lists that it gives. -/
def gather (f : Located → m (List β)) (n : Located) : m (List β) :=
  gatherFrom f [.enter n]

def descendAll (p : Located → m Bool) (n : Located) : m (List Located) :=
  gather (fun n => do return if ← p n then [n] else []) n

def descendChildren (f : Located → m (Option β)) (n : Located) : m (List β) :=
  joinEach (fun c => do return (← f c).toList) n.children

mutual

def postOrderFrom (trail : List Crumb) : Node → List Located
  | .mk label nodes => postOrderAll label trail [] nodes ++ [⟨.mk label nodes, trail⟩]

def postOrderAll (parent : Label) (trail : List Crumb) (before : List Node) :
    List Node → List Located
  | [] => []
  | node :: after =>
    postOrderFrom (⟨before, parent, after⟩ :: trail) node ++
      postOrderAll parent trail (node :: before) after

end

def Located.postOrder (n : Located) : List Located :=
  postOrderFrom n.trail n.node

mutual

def preOrderFrom (trail : List Crumb) : Node → List Located
  | .mk label nodes => ⟨.mk label nodes, trail⟩ :: preOrderAll label trail [] nodes

def preOrderAll (parent : Label) (trail : List Crumb) (before : List Node) :
    List Node → List Located
  | [] => []
  | node :: after =>
    preOrderFrom (⟨before, parent, after⟩ :: trail) node ++
      preOrderAll parent trail (node :: before) after

end

def Located.preOrder (n : Located) : List Located :=
  preOrderFrom n.trail n.node

end SyntaxQuery.Tree
