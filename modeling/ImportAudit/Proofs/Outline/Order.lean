/-
# ImportAudit.Proofs.Outline.Order — the order of the nodes of an outline.

In an outline that lies over its text the nodes lie inside their tree.  Such an outline is nested:
every node has its children in it, one behind the other.  Of two nodes of a nested outline the one
that is listed first ends before the other one begins, or has a child that the other one lies in.  So
the leaves follow one another without overlap, in the order in which they are visited.
-/
import ImportAudit.Grammar.Program
import ImportAudit.Outline.Walk

namespace ImportAudit.Outline

open Outline.Tree

/-! ## Nodes inside their tree -/

/-- The node lies over the text, between two offsets. -/
structure Located.Inside (text : Array Char) (lo hi : Nat) (l : Located) : Prop where
  placed : Placed text l.tree
  lo_le : lo ≤ l.tree.start
  le_hi : l.tree.stop ≤ hi

theorem Located.Inside.mono {text : Array Char} {lo lo' hi hi' : Nat} {l : Located}
    (h : l.Inside text lo hi) (hlo : lo' ≤ lo) (hhi : hi ≤ hi') : l.Inside text lo' hi' :=
  ⟨h.placed, Nat.le_trans hlo h.lo_le, Nat.le_trans h.le_hi hhi⟩

mutual

theorem inside_of_mem_preorder {text : Array Char} {above : List Tree} {l : Located} :
    ∀ {t : Tree}, Placed text t → l ∈ preorder above t → l.Inside text t.start t.stop
  | .node k s e cs, h, hl => by
      have hcs : PlacedAll text s e cs := by
        simp only [Placed] at h
        exact h.2
      rw [preorder] at hl
      rcases List.mem_cons.1 hl with rfl | hl
      · exact ⟨h, Nat.le_refl _, Nat.le_refl _⟩
      · exact inside_of_mem_preorderAll hcs hl

theorem inside_of_mem_preorderAll {text : Array Char} {above : List Tree} {l : Located} :
    ∀ {ts : List Tree} {lo hi : Nat}, PlacedAll text lo hi ts → l ∈ preorderAll above ts →
      l.Inside text lo hi
  | [], _, _, _, hl => by simp [preorderAll] at hl
  | t :: ts, lo, hi, h, hl => by
      simp only [PlacedAll] at h
      obtain ⟨hlo, ht, hts⟩ := h
      have hle : t.start ≤ t.stop := ht.start_le_stop
      rw [preorderAll] at hl
      rcases List.mem_append.1 hl with hl | hl
      · exact (inside_of_mem_preorder ht hl).mono hlo hts.le
      · exact (inside_of_mem_preorderAll hts hl).mono (Nat.le_trans hlo hle) (Nat.le_refl _)

end

/-! ## Nodes one after the other -/

/-- The node ends before the other one begins, or has a child that the other one lies in. -/
def Located.Precedes (a b : Located) : Prop :=
  a.tree.stop ≤ b.tree.start ∨
    ∃ c ∈ a.tree.children, c.start ≤ b.tree.start ∧ b.tree.stop ≤ c.stop

/-- A node without children ends before the nodes behind it begin. -/
theorem Located.Precedes.stop_le {a b : Located} (h : a.Precedes b)
    (hleaf : a.tree.children = []) : a.tree.stop ≤ b.tree.start := by
  rcases h with h | ⟨c, hc, -⟩
  · exact h
  · rw [hleaf] at hc
    cases hc

/-- The span of a node is one, and its children lie in it one behind the other. -/
structure Tree.HoldsChildren (t : Tree) : Prop where
  start_le_stop : t.start ≤ t.stop
  inside : ∀ c ∈ t.children, t.start ≤ c.start ∧ c.stop ≤ t.stop
  inOrder : t.children.Pairwise fun c d => c.stop ≤ d.start

/-- Every node of the tree has its children in it, one behind the other. -/
def Tree.Nested (t : Tree) : Prop := ∀ l ∈ t.nodes, l.tree.HoldsChildren

mutual

theorem within_of_mem_preorder {above : List Tree} {l : Located} :
    ∀ {t : Tree}, (∀ a ∈ preorder above t, a.tree.HoldsChildren) → l ∈ preorder above t →
      t.start ≤ l.tree.start ∧ l.tree.stop ≤ t.stop
  | .node k s e cs, h, hl => by
      rw [preorder, List.forall_mem_cons] at h
      rw [preorder] at hl
      rcases List.mem_cons.1 hl with rfl | hl
      · exact ⟨Nat.le_refl _, Nat.le_refl _⟩
      · obtain ⟨c, hc, hstart, hstop⟩ := within_of_mem_preorderAll h.2 hl
        obtain ⟨hlo, hhi⟩ := h.1.inside c hc
        exact ⟨Nat.le_trans hlo hstart, Nat.le_trans hstop hhi⟩

theorem within_of_mem_preorderAll {above : List Tree} {l : Located} :
    ∀ {ts : List Tree}, (∀ a ∈ preorderAll above ts, a.tree.HoldsChildren) →
      l ∈ preorderAll above ts →
      ∃ t ∈ ts, t.start ≤ l.tree.start ∧ l.tree.stop ≤ t.stop
  | [], _, hl => by simp [preorderAll] at hl
  | t :: ts, h, hl => by
      rw [preorderAll, List.forall_mem_append] at h
      rw [preorderAll] at hl
      rcases List.mem_append.1 hl with hl | hl
      · exact ⟨t, List.mem_cons_self, within_of_mem_preorder h.1 hl⟩
      · obtain ⟨u, hu, hin⟩ := within_of_mem_preorderAll h.2 hl
        exact ⟨u, List.mem_cons_of_mem t hu, hin⟩

end

mutual

theorem pairwise_preorder {above : List Tree} :
    ∀ {t : Tree}, (∀ a ∈ preorder above t, a.tree.HoldsChildren) →
      (preorder above t).Pairwise Located.Precedes
  | .node k s e cs, h => by
      rw [preorder, List.forall_mem_cons] at h
      rw [preorder]
      refine List.Pairwise.cons ?_ (pairwise_preorderAll h.1.inOrder h.2)
      -- what comes behind a node and below it lies in one of its children
      intro b hb
      obtain ⟨c, hc, hin⟩ := within_of_mem_preorderAll h.2 hb
      exact .inr ⟨c, hc, hin⟩

theorem pairwise_preorderAll {above : List Tree} :
    ∀ {ts : List Tree}, ts.Pairwise (fun c d => c.stop ≤ d.start) →
      (∀ a ∈ preorderAll above ts, a.tree.HoldsChildren) →
      (preorderAll above ts).Pairwise Located.Precedes
  | [], _, _ => by simp [preorderAll]
  | t :: ts, hts, h => by
      obtain ⟨hfirst, hrest⟩ := List.pairwise_cons.1 hts
      rw [preorderAll, List.forall_mem_append] at h
      rw [preorderAll, List.pairwise_append]
      refine ⟨pairwise_preorder h.1, pairwise_preorderAll hrest h.2, ?_⟩
      intro a ha b hb
      have hstop := (within_of_mem_preorder h.1 ha).2
      obtain ⟨u, hu, hstart, -⟩ := within_of_mem_preorderAll h.2 hb
      exact .inl (Nat.le_trans hstop (Nat.le_trans (hfirst u hu) hstart))

end

theorem Tree.Nested.pairwise_nodes {t : Tree} (h : t.Nested) :
    t.nodes.Pairwise Located.Precedes := by
  unfold Nested at h
  rw [nodes_eq_preorder] at h ⊢
  exact pairwise_preorder h

theorem inside_of_mem_nodes {text : Array Char} {t : Tree} (h : Placed text t) {l : Located}
    (hl : l ∈ t.nodes) : l.Inside text t.start t.stop := by
  rw [nodes_eq_preorder] at hl
  exact inside_of_mem_preorder h hl

/-- Siblings that are placed lie in their room, one behind the other. -/
theorem Tree.PlacedAll.inOrder {text : Array Char} :
    ∀ {ts : List Tree} {lo hi : Nat}, PlacedAll text lo hi ts →
      (∀ t ∈ ts, lo ≤ t.start ∧ t.stop ≤ hi) ∧ ts.Pairwise fun c d => c.stop ≤ d.start
  | [], _, _, _ => ⟨nofun, List.Pairwise.nil⟩
  | t :: ts, lo, hi, h => by
      simp only [PlacedAll] at h
      obtain ⟨hlo, ht, hts⟩ := h
      obtain ⟨hinside, horder⟩ := hts.inOrder
      have hle : t.start ≤ t.stop := ht.start_le_stop
      refine ⟨List.forall_mem_cons.2 ⟨⟨hlo, hts.le⟩, fun u hu => ?_⟩,
        List.Pairwise.cons (fun u hu => (hinside u hu).1) horder⟩
      obtain ⟨hstart, hstop⟩ := hinside u hu
      exact ⟨by omega, hstop⟩

/-- An outline that lies over a text is nested. -/
theorem nested_of_placed {text : Array Char} {t : Tree} (h : Placed text t) : t.Nested := by
  intro l hl
  have hplaced := (inside_of_mem_nodes h hl).placed
  obtain ⟨⟨k, s, e, cs⟩, above⟩ := l
  simp only [Placed] at hplaced
  obtain ⟨hinside, horder⟩ := hplaced.2.inOrder
  exact ⟨hplaced.2.le, hinside, horder⟩

theorem pairwise_nodes {text : Array Char} {t : Tree} (h : Placed text t) :
    t.nodes.Pairwise Located.Precedes :=
  (nested_of_placed h).pairwise_nodes

/-- Of two nodes one comes before the other. -/
theorem precedes_or_precedes {text : Array Char} {t : Tree} (h : Placed text t) {a b : Located}
    (ha : a ∈ t.nodes) (hb : b ∈ t.nodes) (hne : a ≠ b) : a.Precedes b ∨ b.Precedes a := by
  have hall := List.pairwise_iff_getElem.1 (pairwise_nodes h)
  obtain ⟨i, hi, rfl⟩ := List.mem_iff_getElem.1 ha
  obtain ⟨j, hj, rfl⟩ := List.mem_iff_getElem.1 hb
  rcases Nat.lt_trichotomy i j with hij | rfl | hij
  · exact .inl (hall i j hi hj hij)
  · exact absurd rfl hne
  · exact .inr (hall j i hj hi hij)

/-! ## Nodes above and below a node -/

theorem mem_preorder_self (l : Located) : l ∈ preorder l.above l.tree := by
  rw [preorder_eq_cons]
  exact List.mem_cons_self

mutual

/-- What lies below a node of a tree is a node of the tree. -/
theorem mem_preorder_trans {above : List Tree} {p l : Located} :
    ∀ {t : Tree}, p ∈ preorder above t → l ∈ preorder p.above p.tree → l ∈ preorder above t
  | .node k s e cs, hp, hl => by
      rw [preorder] at hp
      rcases List.mem_cons.mp hp with rfl | hp
      · exact hl
      · rw [preorder]
        exact List.mem_cons_of_mem _ (mem_preorderAll_trans hp hl)

theorem mem_preorderAll_trans {above : List Tree} {p l : Located} :
    ∀ {ts : List Tree}, p ∈ preorderAll above ts → l ∈ preorder p.above p.tree →
      l ∈ preorderAll above ts
  | [], hp, _ => by simp [preorderAll] at hp
  | t :: ts, hp, hl => by
      rw [preorderAll] at hp ⊢
      rcases List.mem_append.mp hp with hp | hp
      · exact List.mem_append_left _ (mem_preorder_trans hp hl)
      · exact List.mem_append_right _ (mem_preorderAll_trans hp hl)

end

theorem mem_preorder_of_mem_children {above : List Tree} {t : Tree} {l c : Located}
    (hl : l ∈ preorder above t) (hc : c ∈ l.children) : c ∈ preorder above t := by
  refine mem_preorder_trans hl ?_
  rw [preorder_eq_cons l]
  exact List.mem_cons_of_mem _ (List.mem_flatMap.2 ⟨c, hc, mem_preorder_self c⟩)

mutual

theorem eq_or_exists_of_mem_preorder {above : List Tree} {l : Located} :
    ∀ {t : Tree}, l ∈ preorder above t →
      l = ⟨t, above⟩ ∨ ∃ p ∈ preorder above t, l ∈ p.children
  | .node k s e cs, hl => by
      rw [preorder] at hl ⊢
      rcases List.mem_cons.1 hl with rfl | hl
      · exact .inl rfl
      · rcases exists_of_mem_preorderAll_cons hl with ⟨c, hc, rfl⟩ | ⟨p, hp, hlp⟩
        · exact .inr ⟨_, List.mem_cons_self, List.mem_map.2 ⟨c, hc, rfl⟩⟩
        · exact .inr ⟨p, List.mem_cons_of_mem _ hp, hlp⟩

theorem exists_of_mem_preorderAll_cons {above : List Tree} {l : Located} :
    ∀ {ts : List Tree}, l ∈ preorderAll above ts →
      (∃ t ∈ ts, l = ⟨t, above⟩) ∨ ∃ p ∈ preorderAll above ts, l ∈ p.children
  | [], hl => by simp [preorderAll] at hl
  | t :: ts, hl => by
      rw [preorderAll] at hl ⊢
      rcases List.mem_append.1 hl with hl | hl
      · rcases eq_or_exists_of_mem_preorder hl with rfl | ⟨p, hp, hlp⟩
        · exact .inl ⟨t, List.mem_cons_self, rfl⟩
        · exact .inr ⟨p, List.mem_append_left _ hp, hlp⟩
      · rcases exists_of_mem_preorderAll_cons hl with ⟨u, hu, rfl⟩ | ⟨p, hp, hlp⟩
        · exact .inl ⟨u, List.mem_cons_of_mem t hu, rfl⟩
        · exact .inr ⟨p, List.mem_append_right _ hp, hlp⟩

end

mutual

theorem suffix_above {above : List Tree} {l : Located} :
    ∀ {t : Tree}, l ∈ preorder above t → above <:+ l.above
  | .node k s e cs, hl => by
      rw [preorder] at hl
      rcases List.mem_cons.mp hl with rfl | hl
      · exact List.suffix_rfl
      · exact (List.suffix_cons _ _).trans (suffix_above_of_all hl)

theorem suffix_above_of_all {above : List Tree} {l : Located} :
    ∀ {ts : List Tree}, l ∈ preorderAll above ts → above <:+ l.above
  | [], hl => by simp [preorderAll] at hl
  | t :: ts, hl => by
      rw [preorderAll] at hl
      rcases List.mem_append.mp hl with hl | hl
      · exact suffix_above hl
      · exact suffix_above_of_all hl

end

/-- A tree is above each of its nodes but its root. -/
theorem eq_or_mem_above {t : Tree} {l : Located} (hl : l ∈ t.nodes) :
    l = ⟨t, []⟩ ∨ t ∈ l.above := by
  rw [nodes_eq_preorder] at hl
  obtain ⟨k, s, e, cs⟩ := t
  rw [preorder] at hl
  rcases List.mem_cons.mp hl with rfl | hl
  · exact .inl rfl
  · exact .inr ((suffix_above_of_all hl).subset List.mem_cons_self)

/-- The children of a node of a tree are nodes of the tree. -/
theorem mem_nodes_of_mem_children {t : Tree} {l c : Located} (hl : l ∈ t.nodes)
    (hc : c ∈ l.children) : c ∈ t.nodes := by
  rw [nodes_eq_preorder] at hl ⊢
  exact mem_preorder_of_mem_children hl hc

/-- The node right above a node of a tree is a node of the tree. -/
theorem mem_nodes_of_above {t p : Tree} {l : Located} {above : List Tree} (hl : l ∈ t.nodes)
    (h : l.above = p :: above) : ⟨p, above⟩ ∈ t.nodes := by
  rw [nodes_eq_preorder] at hl ⊢
  rcases eq_or_exists_of_mem_preorder hl with rfl | ⟨q, hq, hlq⟩
  · cases h
  · obtain ⟨c, -, rfl⟩ := List.mem_map.1 hlq
    obtain ⟨rfl, rfl⟩ := List.cons.inj h
    exact hq

/-- A node is a child of the one right above it. -/
theorem mem_children_of_above {outline t : Tree} {l : Located} {above : List Tree}
    (hl : l ∈ outline.nodes) (h : l.above = t :: above) : l ∈ Located.children ⟨t, above⟩ := by
  rw [nodes_eq_preorder] at hl
  rcases eq_or_exists_of_mem_preorder hl with rfl | ⟨⟨p, above'⟩, -, hlp⟩
  · cases h
  · obtain ⟨c, -, rfl⟩ := List.mem_map.mp hlp
    cases h
    exact hlp

/-- A node lies inside of the one right above it. -/
theorem inside_of_above {text : Array Char} {outline t : Tree} (hp : Placed text outline)
    {l : Located} {above : List Tree} (hl : l ∈ outline.nodes) (h : l.above = t :: above) :
    l.Inside text t.start t.stop := by
  have hplaced := (inside_of_mem_nodes hp (mem_nodes_of_above hl h)).placed
  exact inside_of_mem_preorder hplaced
    (mem_preorder_of_mem_children (mem_preorder_self ⟨t, above⟩) (mem_children_of_above hl h))

end ImportAudit.Outline

namespace ImportAudit.Grammar

open Outline Outline.Tree

/-- The outline of a script lies over its text. -/
theorem Script.outline_placed (s : Script) : Placed s.text s.outline := by
  unfold Script.outline
  split
  · simp only [Placed, PlacedAll]
    exact ⟨tokenShape_of_not_isToken rfl, Nat.le_refl _⟩
  · next c _ =>
    simp only [Placed]
    exact ⟨tokenShape_of_not_isToken rfl, c.flushed.placedAll_reverse⟩

end ImportAudit.Grammar
