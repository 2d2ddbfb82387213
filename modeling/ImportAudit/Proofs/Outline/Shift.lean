/-
# ImportAudit.Proofs.Outline.Shift — a tree that stands elsewhere.

A tree may stand at another offset, and below other nodes.  Its nodes are then the nodes it has, each
at its new offset and with the new nodes above it (`preorder_shift`), and they are nodes of whatever
tree it stands in (`within_mem_nodes`).
-/
import ImportAudit.Proofs.Outline.Order

namespace ImportAudit.Outline

open Outline.Tree

mutual

/-- The tree as it stands `d` characters further. -/
def Tree.shift (d : Nat) : Tree → Tree
  | .node k s e cs => .node k (s + d) (e + d) (shiftAll d cs)

/-- The trees of a list as they stand `d` characters further. -/
def Tree.shiftAll (d : Nat) : List Tree → List Tree
  | [] => []
  | t :: ts => shift d t :: shiftAll d ts

end

/-- The node of a tree, where the tree stands `d` characters further and below the nodes `outer`. -/
def Located.within (d : Nat) (outer : List Tree) (l : Located) : Located :=
  ⟨l.tree.shift d, l.above.map (Tree.shift d) ++ outer⟩

section Shift

variable (d : Nat)

theorem shiftAll_eq_map (ts : List Tree) : shiftAll d ts = ts.map (shift d) := by
  induction ts with
  | nil => rw [shiftAll, List.map_nil]
  | cons t ts ih => rw [shiftAll, ih, List.map_cons]

theorem kind_shift (t : Tree) : (t.shift d).kind = t.kind := by
  cases t
  rw [shift, kind_node, kind_node]

theorem start_shift (t : Tree) : (t.shift d).start = t.start + d := by
  cases t
  rw [shift, start_node, start_node]

theorem children_shift (t : Tree) : (t.shift d).children = t.children.map (shift d) := by
  cases t
  rw [shift, children_node, children_node, shiftAll_eq_map]

variable (outer : List Tree)

mutual

/-- The nodes of a tree that stands elsewhere are its nodes, as they stand there. -/
theorem preorder_shift (above : List Tree) :
    ∀ t : Tree, preorder (above.map (shift d) ++ outer) (t.shift d) =
      (preorder above t).map (Located.within d outer)
  | .node k s e cs => by
      rw [shift, preorder, preorder, List.map_cons, ← preorderAll_shift _ cs, List.map_cons,
        List.cons_append, shift]
      rfl

theorem preorderAll_shift (above : List Tree) :
    ∀ ts : List Tree, preorderAll (above.map (shift d) ++ outer) (shiftAll d ts) =
      (preorderAll above ts).map (Located.within d outer)
  | [] => rfl
  | t :: ts => by
      rw [shiftAll, preorderAll, preorderAll, List.map_append, preorder_shift above t,
        preorderAll_shift above ts]

end

end Shift

/-- The nodes of a body are nodes of every tree that the body stands in. -/
theorem within_mem_nodes {t body : Tree} {d : Nat} {outer : List Tree}
    (hbody : ⟨body.shift d, outer⟩ ∈ t.nodes) {l : Located} (hl : l ∈ body.nodes) :
    l.within d outer ∈ t.nodes := by
  rw [nodes_eq_preorder] at hbody hl ⊢
  refine mem_preorder_trans hbody ?_
  have hnodes : preorder outer (body.shift d) = _ := preorder_shift d outer [] body
  rw [hnodes]
  exact List.mem_map_of_mem hl

end ImportAudit.Outline
