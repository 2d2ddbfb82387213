/-
# ImportAudit.Proofs.Outline.Insertion — an outline with one comment more.

A comment that is put into a text moves whatever begins behind it and widens whatever it is put
into, and is one more child of the innermost node that it is put into, its host (`Insertion.tree`).
The nodes of the outline are then the nodes from before, each moved, and the comment
(`filterMap_preorder`).  In an outline that lies over its text there is one host (`eq_of_hosts`), and
a node that nothing is put into reads as before (`extract_tree`).
-/
import ImportAudit.Proofs.Outline.Order

namespace ImportAudit.Outline

open Outline.Tree

/-- A comment with what ends it, to be put into a text at some offset. -/
structure Insertion where
  position : Nat
  comment : List Char
  ending : List Char
  kind : Kind

namespace Insertion

variable (i : Insertion)

/-! ## Moving a tree -/

/-- The number of characters that are put into the text. -/
def length : Nat := i.comment.length + i.ending.length

/-- The text with the comment. -/
def inText (text : List Char) : List Char :=
  text.take i.position ++ (i.comment ++ i.ending) ++ text.drop i.position

/-- The comment as a node. -/
def node : Tree := .node i.kind i.position (i.position + i.comment.length) []

/-- The comment is put into a span if something of the span stands on either side of it. -/
def Within (start stop : Nat) : Prop := start < i.position ∧ i.position < stop

instance (start stop : Nat) : Decidable (i.Within start stop) :=
  inferInstanceAs (Decidable (_ ∧ _))

/-- The comment is put into the node, and into no child of it. -/
def Hosts (t : Tree) : Prop :=
  i.Within t.start t.stop ∧ ∀ c ∈ t.children, ¬i.Within c.start c.stop

instance (t : Tree) : Decidable (i.Hosts t) := inferInstanceAs (Decidable (_ ∧ _))

/-- Where a span begins that began at `start`. -/
def moveStart (start : Nat) : Nat := if i.position ≤ start then start + i.length else start

/-- Where a span ends that began at `start` and ended at `stop`. -/
def moveStop (start stop : Nat) : Nat :=
  if i.position ≤ start ∨ i.position < stop then stop + i.length else stop

/-- The comment among nodes that have moved: before the first of those that begin behind it. -/
def among (ts : List Tree) : List Tree :=
  ts.takeWhile (fun t => t.start < i.position) ++
    i.node :: ts.dropWhile fun t => t.start < i.position

mutual

/-- The tree with the comment. -/
def tree : Tree → Tree
  | .node k s e cs =>
    .node k (i.moveStart s) (i.moveStop s e)
      (if i.Hosts (.node k s e cs) then i.among (treeAll cs) else treeAll cs)

/-- The trees of a list, each with the comment. -/
def treeAll : List Tree → List Tree
  | [] => []
  | t :: ts => tree t :: treeAll ts

end

/-- The node among the nodes above it, with the comment. -/
def located (l : Located) : Located := ⟨i.tree l.tree, l.above.map i.tree⟩

@[simp] theorem kind_tree (t : Tree) : (i.tree t).kind = t.kind := by
  cases t
  rw [tree, kind_node, kind_node]

@[simp] theorem start_tree (t : Tree) : (i.tree t).start = i.moveStart t.start := by
  cases t
  rw [tree, start_node, start_node]

@[simp] theorem stop_tree (t : Tree) : (i.tree t).stop = i.moveStop t.start t.stop := by
  cases t
  rw [tree, stop_node, start_node, stop_node]

theorem treeAll_eq_map (ts : List Tree) : i.treeAll ts = ts.map i.tree := by
  induction ts with
  | nil => rw [treeAll, List.map_nil]
  | cons t ts ih => rw [treeAll, ih, List.map_cons]

theorem children_tree (t : Tree) : (i.tree t).children =
    if i.Hosts t then i.among (t.children.map i.tree) else t.children.map i.tree := by
  cases t
  rw [tree, children_node, children_node, treeAll_eq_map]

theorem children_tree_of_not_hosts {t : Tree} (h : ¬i.Hosts t) :
    (i.tree t).children = t.children.map i.tree := by
  rw [children_tree, if_neg h]

theorem moveStart_inj {a b : Nat} : i.moveStart a = i.moveStart b ↔ a = b := by
  unfold moveStart
  split <;> split <;> omega

/-! ## The nodes of the tree -/

theorem preorderAll_append (above : List Tree) (ts us : List Tree) :
    preorderAll above (ts ++ us) = preorderAll above ts ++ preorderAll above us := by
  rw [preorderAll_eq_flatMap, List.map_append, List.flatMap_append, ← preorderAll_eq_flatMap,
    ← preorderAll_eq_flatMap]

theorem preorder_eq_preorderAll (above : List Tree) (t : Tree) :
    preorder above t = ⟨t, above⟩ :: preorderAll (t :: above) t.children := by
  cases t
  rw [preorder, children_node]

section Nodes

variable {i} {α : Type} {g : Located → Option α}

/-- What makes nothing of the comment makes nothing more of the nodes among which it stands. -/
theorem filterMap_preorderAll_among (hg : ∀ above, g ⟨i.node, above⟩ = none)
    (above ts : List Tree) :
    (preorderAll above (i.among ts)).filterMap g = (preorderAll above ts).filterMap g := by
  have hnode : preorder above i.node = [⟨i.node, above⟩] := by
    rw [node, preorder, preorderAll]
  have hsplit : preorderAll above ts =
      preorderAll above (ts.takeWhile fun t => t.start < i.position) ++
        preorderAll above (ts.dropWhile fun t => t.start < i.position) := by
    rw [← preorderAll_append, List.takeWhile_append_dropWhile]
  rw [among, hsplit, preorderAll_append, preorderAll, hnode, List.singleton_append,
    List.filterMap_append, List.filterMap_append, List.filterMap_cons_none (hg above)]

mutual

/-- What makes nothing of the comment makes of the other nodes what it makes of them as they have
moved. -/
theorem filterMap_preorder (hg : ∀ above, g ⟨i.node, above⟩ = none) (above : List Tree) :
    ∀ t : Tree, (preorder (above.map i.tree) (i.tree t)).filterMap g =
      (preorder above t).filterMap fun l => g (i.located l)
  | .node k s e cs => by
      have hbelow := filterMap_preorderAll hg (.node k s e cs :: above) cs
      have hchildren : (preorderAll ((Tree.node k s e cs :: above).map i.tree)
          (i.tree (.node k s e cs)).children).filterMap g =
            (preorderAll (.node k s e cs :: above) cs).filterMap fun l => g (i.located l) := by
        rw [← hbelow, children_tree, treeAll_eq_map, children_node]
        split
        · exact filterMap_preorderAll_among hg _ _
        · rfl
      rw [List.map_cons] at hchildren
      rw [preorder_eq_preorderAll, preorder, List.filterMap_cons, List.filterMap_cons, hchildren]
      rfl

theorem filterMap_preorderAll (hg : ∀ above, g ⟨i.node, above⟩ = none) (above : List Tree) :
    ∀ ts : List Tree, (preorderAll (above.map i.tree) (i.treeAll ts)).filterMap g =
      (preorderAll above ts).filterMap fun l => g (i.located l)
  | [] => by rw [treeAll, preorderAll, preorderAll, List.filterMap_nil, List.filterMap_nil]
  | t :: ts => by
      rw [treeAll, preorderAll, preorderAll, List.filterMap_append, List.filterMap_append,
        filterMap_preorder hg above t, filterMap_preorderAll hg above ts]

end

end Nodes

/-! ## The host -/

section Host

variable {i} {text : Array Char} {outline : Tree} {host a : Located}

/-- A node that the comment is put into is the host, or the comment is put into a child of it. -/
theorem eq_or_exists_within (hp : Placed text outline) (hmem : host ∈ outline.nodes)
    (hhost : i.Hosts host.tree) (ha : a ∈ outline.nodes)
    (hwithin : i.Within a.tree.start a.tree.stop) :
    a = host ∨ ∃ c ∈ a.tree.children, i.Within c.start c.stop := by
  by_cases hne : a = host
  · exact .inl hne
  obtain ⟨⟨hstart, hstop⟩, houtside⟩ := hhost
  obtain ⟨hstart', hstop'⟩ := hwithin
  rcases precedes_or_precedes hp ha hmem hne with hbefore | hbefore
  · rcases hbefore with hle | ⟨c, hc, hlo, hhi⟩
    · omega
    · exact .inr ⟨c, hc, by omega, by omega⟩
  · rcases hbefore with hle | ⟨c, hc, hlo, hhi⟩
    · omega
    · exact absurd ⟨by omega, by omega⟩ (houtside c hc)

/-- There is one host. -/
theorem eq_of_hosts (hp : Placed text outline) (hmem : host ∈ outline.nodes)
    (hhost : i.Hosts host.tree) (ha : a ∈ outline.nodes) (hosts : i.Hosts a.tree) : a = host := by
  rcases eq_or_exists_within hp hmem hhost ha hosts.1 with heq | ⟨c, hc, hwithin⟩
  · exact heq
  · exact absurd hwithin (hosts.2 c hc)

/-- Nothing is put into a leaf if the host is none. -/
theorem not_within_of_leaf (hp : Placed text outline) (hmem : host ∈ outline.nodes)
    (hhost : i.Hosts host.tree) (hinner : host.tree.children ≠ []) (ha : a ∈ outline.nodes)
    (hleaf : a.tree.children = []) : ¬i.Within a.tree.start a.tree.stop := by
  intro hwithin
  rcases eq_or_exists_within hp hmem hhost ha hwithin with rfl | ⟨c, hc, -⟩
  · exact hinner hleaf
  · rw [hleaf] at hc
    cases hc

end Host

/-! ## Reading the text -/

section Text

variable {i} {text text' : Array Char}

theorem drop_inText {cs : List Char} (hposition : i.position ≤ cs.length) {offset : Nat}
    (h : i.position ≤ offset) : (i.inText cs).drop (offset + i.length) = cs.drop offset := by
  have htake : (cs.take i.position).length = i.position := List.length_take_of_le hposition
  unfold inText
  rw [List.drop_append, List.drop_eq_nil_of_le, List.nil_append, List.drop_drop]
  · congr 1
    rw [List.length_append, List.length_append, htake, length]
    omega
  · rw [List.length_append, List.length_append, htake, length]
    omega

theorem take_inText {cs : List Char} (hposition : i.position ≤ cs.length) {offset : Nat}
    (h : offset ≤ i.position) : (i.inText cs).take offset = cs.take offset := by
  have htake : (cs.take i.position).length = i.position := List.length_take_of_le hposition
  unfold inText
  rw [List.append_assoc, List.take_append_of_le_length (by omega), List.take_take,
    Nat.min_eq_left h]

/-- A span that the comment is not put into reads as before, where it has moved to and with the same
margin cut off at either end. -/
theorem extract_inText (htext : text'.toList = i.inText text.toList)
    (hposition : i.position ≤ text.size) {start stop : Nat} (h : ¬i.Within start stop)
    (margin : Nat) :
    text'.extract (i.moveStart start + margin) (i.moveStop start stop - margin) =
      text.extract (start + margin) (stop - margin) := by
  rw [← Array.length_toList] at hposition
  refine Array.ext' ?_
  simp only [Array.toList_extract, List.extract_eq_take_drop, htext]
  by_cases hbehind : i.position ≤ start
  · rw [moveStart, if_pos hbehind, moveStop, if_pos (.inl hbehind),
      show start + i.length + margin = start + margin + i.length by omega,
      drop_inText hposition (by omega)]
    congr 1
    omega
  · have hbefore : ¬i.position < stop := fun hstop => h ⟨by omega, hstop⟩
    rw [moveStart, if_neg hbehind, moveStop, if_neg (by omega), ← List.drop_take, ← List.drop_take,
      take_inText hposition (by omega)]

/-- A node that the comment is not put into covers the same text as before. -/
theorem extract_tree (htext : text'.toList = i.inText text.toList)
    (hposition : i.position ≤ text.size) {t : Tree} (h : ¬i.Within t.start t.stop) :
    text'.extract (i.tree t).start (i.tree t).stop = text.extract t.start t.stop := by
  have hextract := extract_inText htext hposition h 0
  rwa [← start_tree, ← stop_tree] at hextract

end Text

end Insertion

end ImportAudit.Outline
