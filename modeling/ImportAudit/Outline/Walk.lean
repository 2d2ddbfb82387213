/-
# ImportAudit.Outline.Walk — visiting the nodes of an outline in text order.

`Tree.preorder` lists the nodes of a tree, each before what lies below it and each with the chain of
nodes above it.  `visit` lists the same nodes with a stack of what is still to be visited: it pops a
node and pushes the children, the first of them on top.  `visit_eq_take` is the equation between the
two, for any stack and any number of turns.
-/
import ImportAudit.Outline.Tree

namespace ImportAudit.Outline

/-- A node together with the nodes above it, innermost first. -/
structure Located where
  tree : Tree
  above : List Tree

namespace Located

/-- The kind of the node. -/
def kind (l : Located) : Kind := l.tree.kind

/-- The children of a node, each with the chain that leads to it. -/
def children (l : Located) : List Located :=
  l.tree.children.map fun t => ⟨t, l.tree :: l.above⟩

end Located

namespace Tree

mutual

/-- The number of nodes. -/
def size : Tree → Nat
  | .node _ _ _ cs => sizeAll cs + 1

/-- The number of nodes of all trees of a list. -/
def sizeAll : List Tree → Nat
  | [] => 0
  | t :: ts => size t + sizeAll ts

end

mutual

/-- The nodes of a tree that lies below `above`, each before the nodes below it. -/
def preorder (above : List Tree) : Tree → List Located
  | .node k s e cs => ⟨.node k s e cs, above⟩ :: preorderAll (.node k s e cs :: above) cs

/-- The nodes of the trees of a list, one tree after the other. -/
def preorderAll (above : List Tree) : List Tree → List Located
  | [] => []
  | t :: ts => preorder above t ++ preorderAll above ts

end

end Tree

open ImportAudit.Outline.Tree

/-! ## Visiting with a stack -/

/-- The number of nodes that a stack still holds. -/
def stackSize : List Located → Nat
  | [] => 0
  | l :: stack => l.tree.size + stackSize stack

/-- The nodes below the stack in the order in which they are popped. -/
def visit : Nat → List Located → List Located
  | 0, _ => []
  | _ + 1, [] => []
  | fuel + 1, l :: stack => l :: visit fuel (l.children ++ stack)

/-- The nodes of a tree in the order in which they are popped from a stack that holds the tree. -/
def Tree.nodes (t : Tree) : List Located := visit t.size [⟨t, []⟩]

/-! ## The two orders agree -/

theorem stackSize_cons (l : Located) (stack : List Located) :
    stackSize (l :: stack) = l.tree.size + stackSize stack := rfl

theorem stackSize_append (xs ys : List Located) :
    stackSize (xs ++ ys) = stackSize xs + stackSize ys := by
  induction xs with
  | nil => exact (Nat.zero_add _).symm
  | cons x xs ih => rw [List.cons_append, stackSize_cons, stackSize_cons, ih, Nat.add_assoc]

theorem stackSize_map (above : List Tree) (ts : List Tree) :
    stackSize (ts.map fun t => ⟨t, above⟩) = sizeAll ts := by
  induction ts with
  | nil => rfl
  | cons t ts ih => rw [List.map_cons, stackSize_cons, ih, sizeAll]

theorem size_eq_children (t : Tree) (above : List Tree) :
    t.size = stackSize (Located.children ⟨t, above⟩) + 1 := by
  obtain ⟨k, s, e, cs⟩ := t
  simp only [Located.children, stackSize_map, children_node, size]

theorem preorderAll_eq_flatMap (above : List Tree) (ts : List Tree) :
    preorderAll above ts = (ts.map fun t => (⟨t, above⟩ : Located)).flatMap
      fun l => preorder l.above l.tree := by
  induction ts with
  | nil => rfl
  | cons t ts ih => rw [preorderAll, ih]; rfl

theorem preorder_eq_cons (l : Located) :
    preorder l.above l.tree = l :: l.children.flatMap fun c => preorder c.above c.tree := by
  obtain ⟨⟨k, s, e, cs⟩, above⟩ := l
  simp only [preorder, preorderAll_eq_flatMap, Located.children, children_node]

mutual

theorem length_preorder (above : List Tree) : ∀ t : Tree, (preorder above t).length = t.size
  | .node k s e cs => by rw [preorder, List.length_cons, length_preorderAll _ cs, size]

theorem length_preorderAll (above : List Tree) :
    ∀ ts : List Tree, (preorderAll above ts).length = sizeAll ts
  | [] => rfl
  | t :: ts => by
    rw [preorderAll, List.length_append, length_preorder above t, length_preorderAll above ts,
      sizeAll]

end

theorem length_flatMap_preorder (stack : List Located) :
    (stack.flatMap fun l => preorder l.above l.tree).length = stackSize stack := by
  induction stack with
  | nil => rfl
  | cons l stack ih =>
    rw [List.flatMap_cons, List.length_append, length_preorder, ih, stackSize_cons]

/-- The first nodes that are popped are the first ones of the preorders of what the stack holds, top
first. -/
theorem visit_eq_take (n : Nat) (stack : List Located) :
    visit n stack = (stack.flatMap fun l => preorder l.above l.tree).take n := by
  induction n generalizing stack with
  | zero => rfl
  | succ n ih =>
    cases stack with
    | nil => rfl
    | cons l stack =>
      rw [visit, ih, List.flatMap_append, List.flatMap_cons, preorder_eq_cons l, List.cons_append,
        List.take_succ_cons]

/-- Popping a stack until it is empty lists the preorders of what it held, top first. -/
theorem visit_stackSize (stack : List Located) :
    visit (stackSize stack) stack = stack.flatMap fun l => preorder l.above l.tree := by
  rw [visit_eq_take, ← length_flatMap_preorder, List.take_length]

/-- The stack visits the nodes of a tree in preorder. -/
theorem Tree.nodes_eq_preorder (t : Tree) : t.nodes = t.preorder [] := by
  have h := visit_stackSize [⟨t, []⟩]
  rw [stackSize_cons, show stackSize [] = 0 from rfl, Nat.add_zero] at h
  rw [Tree.nodes, h, List.flatMap_cons, List.flatMap_nil, List.append_nil]

end ImportAudit.Outline
