/-
# ImportAudit.Proofs.Outline.Search — finding the nodes of some kinds.

The nodes of some kinds are found by a loop: it takes the last of the nodes that wait, finds it if it
is of one of the kinds, and lets its children wait behind the others, the first child last of all.
After any number of turns it has found what is of the kinds among as many nodes of the preorder
(`found_after`), and it stands still after one turn for every node (`waiting_after_eq_nil_iff`).  So
every node is looked at once: the nodes have addresses, which increase in lexicographic order along
the preorder (`pairwise_addresses`, `map_preorder`).
-/
import ImportAudit.Proofs.Outline.Order
import Mathlib.Data.List.Basic

namespace ImportAudit.Outline

open Outline.Tree

/-! ## The loop -/

/-- The nodes of a tree that are of one of some kinds, in the order in which they are visited. -/
def Tree.nodesOf (t : Tree) (kinds : List Kind) : List Located :=
  t.nodes.filter fun l => l.kind ∈ kinds

/-- A search under way: the nodes that wait to be looked at, the next one last, and what has been
found. -/
structure Search where
  waiting : List Located
  found : List Located

namespace Search

/-- A search as it begins: the root waits. -/
def start (t : Tree) : Search := ⟨[⟨t, []⟩], []⟩

/-- One turn of the loop: the last node that waits is looked at, and its children wait in its
place. -/
def turn (kinds : List Kind) (s : Search) : Search :=
  match s.waiting.getLast? with
  | none => s
  | some l =>
    { waiting := s.waiting.dropLast ++ l.children.reverse
      found := if l.kind ∈ kinds then s.found ++ [l] else s.found }

/-- The search after some more turns. -/
def after (kinds : List Kind) : Nat → Search → Search
  | 0, s => s
  | n + 1, s => after kinds n (turn kinds s)

variable (kinds : List Kind)

theorem turn_nil (found : List Located) : turn kinds ⟨[], found⟩ = ⟨[], found⟩ := rfl

theorem turn_concat (stack : List Located) (l : Located) (found : List Located) :
    turn kinds ⟨stack ++ [l], found⟩ =
      ⟨stack ++ l.children.reverse, found ++ [l].filter fun a => a.kind ∈ kinds⟩ := by
  unfold turn
  rw [List.getLast?_concat, List.dropLast_concat]
  by_cases h : l.kind ∈ kinds
  · simp [h]
  · simp [h]

theorem after_nil (n : Nat) (found : List Located) :
    after kinds n ⟨[], found⟩ = ⟨[], found⟩ := by
  induction n with
  | zero => rfl
  | succ n ih => rw [after, turn_nil, ih]

/-- Each turn finds what is of the kinds of the node that a visit comes to next. -/
theorem found_after (n : Nat) (stack found : List Located) :
    (after kinds n ⟨stack, found⟩).found =
      found ++ (visit n stack.reverse).filter fun l => l.kind ∈ kinds := by
  induction n generalizing stack found with
  | zero => rw [after, visit, List.filter_nil, List.append_nil]
  | succ n ih =>
      rcases List.eq_nil_or_concat' stack with rfl | ⟨stack, l, rfl⟩
      · rw [after_nil, List.reverse_nil, visit, List.filter_nil, List.append_nil]
      · have hstack : (stack ++ l.children.reverse).reverse = l.children ++ stack.reverse := by
          rw [List.reverse_append, List.reverse_reverse]
        rw [after, turn_concat, ih, hstack, List.reverse_append, List.reverse_singleton,
          List.singleton_append, visit, List.append_assoc, ← List.filter_append,
          List.singleton_append]

theorem stackSize_reverse (stack : List Located) : stackSize stack.reverse = stackSize stack := by
  induction stack with
  | nil => rfl
  | cons l stack ih =>
      rw [List.reverse_cons, stackSize_append, ih, stackSize_cons, stackSize_cons, stackSize]
      omega

/-- The loop stands still after as many turns as there are nodes at and below those that wait. -/
theorem waiting_after_eq_nil_iff (n : Nat) (stack found : List Located) :
    (after kinds n ⟨stack, found⟩).waiting = [] ↔ stackSize stack ≤ n := by
  induction n generalizing stack found with
  | zero =>
      rcases List.eq_nil_or_concat' stack with rfl | ⟨stack, l, rfl⟩
      · exact ⟨fun _ => Nat.le_refl 0, fun _ => rfl⟩
      · have hpos : l.tree.size = stackSize l.children + 1 := size_eq_children l.tree l.above
        refine ⟨fun h => absurd h (List.append_ne_nil_of_right_ne_nil _ (List.cons_ne_nil l [])), ?_⟩
        rw [stackSize_append, stackSize_cons]
        omega
  | succ n ih =>
      rcases List.eq_nil_or_concat' stack with rfl | ⟨stack, l, rfl⟩
      · rw [after_nil]
        exact ⟨fun _ => Nat.zero_le _, fun _ => rfl⟩
      · -- the turn takes one node, and the nodes below it stay
        have hsize : l.tree.size = stackSize l.children + 1 := size_eq_children l.tree l.above
        rw [after, turn_concat, ih, stackSize_append, stackSize_append, stackSize_reverse,
          stackSize_cons, stackSize]
        omega

end Search

/-! ## Addresses -/

/-- The node that is reached from another one by going to one child after the other, each given by
its number. -/
def Located.at? : Located → List Nat → Option Located
  | l, [] => some l
  | l, i :: rest =>
    match l.children[i]? with
    | none => none
    | some c => c.at? rest

mutual

/-- The addresses of the nodes of a tree, in preorder. -/
def addresses : Tree → List (List Nat)
  | .node _ _ _ cs => [] :: addressesFrom 0 cs

/-- The addresses of the nodes of siblings, the first of which has the number `i`. -/
def addressesFrom (i : Nat) : List Tree → List (List Nat)
  | [] => []
  | t :: ts => (addresses t).map (i :: ·) ++ addressesFrom (i + 1) ts

end

mutual

/-- The addresses lead to the nodes of the preorder, one after the other. -/
theorem map_preorder (above : List Tree) :
    ∀ t : Tree, (preorder above t).map some = (addresses t).map (Located.mk t above).at?
  | .node k s e cs => by
      rw [preorder, addresses, List.map_cons, List.map_cons, Located.at?,
        map_preorderAll (p := ⟨.node k s e cs, above⟩) (i := 0) cs rfl]

theorem map_preorderAll {p : Located} {above : List Tree} {i : Nat} :
    ∀ ts : List Tree, p.children.drop i = ts.map (fun t => ⟨t, above⟩) →
      (preorderAll above ts).map some = (addressesFrom i ts).map p.at?
  | [], _ => rfl
  | t :: ts, h => by
      have hget : p.children[i]? = some ⟨t, above⟩ := by
        rw [← List.head?_drop, h]
        rfl
      have hrest : p.children.drop (i + 1) = ts.map (fun t => ⟨t, above⟩) := by
        rw [← List.tail_drop, h]
        rfl
      have hfirst : ∀ a : List Nat, p.at? (i :: a) = (Located.mk t above).at? a := by
        intro a
        rw [Located.at?, hget]
      rw [preorderAll, addressesFrom, List.map_append, List.map_append, map_preorder above t,
        map_preorderAll ts hrest, List.map_map]
      congr 1
      exact List.map_congr_left fun a _ => (hfirst a).symm

end

/-- The addresses of siblings begin with their numbers. -/
theorem exists_of_mem_addressesFrom {i : Nat} {ts : List Tree} {a : List Nat}
    (h : a ∈ addressesFrom i ts) : ∃ j rest, a = j :: rest ∧ i ≤ j := by
  induction ts generalizing i with
  | nil => simp [addressesFrom] at h
  | cons t ts ih =>
      rw [addressesFrom] at h
      rcases List.mem_append.mp h with h | h
      · obtain ⟨rest, -, rfl⟩ := List.mem_map.mp h
        exact ⟨i, rest, rfl, Nat.le_refl i⟩
      · obtain ⟨j, rest, rfl, hj⟩ := ih h
        exact ⟨j, rest, rfl, Nat.le_of_succ_le hj⟩

mutual

/-- Addresses increase in lexicographic order. -/
theorem pairwise_addresses : ∀ t : Tree, (addresses t).Pairwise (· < ·)
  | .node _ _ _ cs => by
      rw [addresses]
      refine List.Pairwise.cons (fun a ha => ?_) (pairwise_addressesFrom 0 cs)
      obtain ⟨j, rest, rfl, -⟩ := exists_of_mem_addressesFrom ha
      exact List.nil_lt_cons j rest

theorem pairwise_addressesFrom (i : Nat) :
    ∀ ts : List Tree, (addressesFrom i ts).Pairwise (· < ·)
  | [] => List.Pairwise.nil
  | t :: ts => by
      rw [addressesFrom, List.pairwise_append]
      refine ⟨?_, pairwise_addressesFrom (i + 1) ts, ?_⟩
      · refine (pairwise_addresses t).map _ fun a b hlt => ?_
        exact List.cons_lt_cons_self.mpr hlt
      · intro a ha b hb
        obtain ⟨rest, -, rfl⟩ := List.mem_map.mp ha
        obtain ⟨j, rest', rfl, hj⟩ := exists_of_mem_addressesFrom hb
        exact List.cons_lt_cons_iff.mpr (.inl hj)

end

/-- The addresses of a sibling have its number in front. -/
theorem mem_addressesFrom {ts : List Tree} {t : Tree} {a : List Nat} {i j : Nat}
    (ht : ts[j]? = some t) (ha : a ∈ addresses t) : (i + j) :: a ∈ addressesFrom i ts := by
  induction ts generalizing i j with
  | nil => simp at ht
  | cons u ts ih =>
      rw [addressesFrom]
      cases j with
      | zero =>
          obtain rfl : u = t := by simpa using ht
          exact List.mem_append_left _ (List.mem_map_of_mem ha)
      | succ j =>
          have hrest := ih (i := i + 1) (by simpa using ht)
          rw [Nat.add_right_comm, Nat.add_assoc] at hrest
          exact List.mem_append_right _ hrest

/-- An address that leads to a node is one of the addresses. -/
theorem mem_addresses_of_at? {above : List Tree} {t : Tree} {a : List Nat} {l : Located}
    (h : (Located.mk t above).at? a = some l) : a ∈ addresses t := by
  induction a generalizing t above with
  | nil =>
      cases t
      exact List.mem_cons_self
  | cons i rest ih =>
      obtain ⟨k, s, e, cs⟩ := t
      rw [Located.at?, Located.children, List.getElem?_map, children_node] at h
      cases hc : cs[i]? with
      | none =>
          rw [hc] at h
          cases h
      | some c =>
          rw [hc] at h
          have hmem := mem_addressesFrom (i := 0) hc (ih h)
          rw [Nat.zero_add] at hmem
          exact List.mem_cons_of_mem _ hmem

/-- A node of some kinds has an address, and each address that leads to one is met once, in
lexicographic order. -/
theorem exists_addresses (t : Tree) (kinds : List Kind) :
    ∃ places : List (List Nat), places.Pairwise (· < ·) ∧
      (∀ a, a ∈ places ↔ ∃ l, (Located.mk t []).at? a = some l ∧ l.kind ∈ kinds) ∧
      (t.nodesOf kinds).map some = places.map (Located.mk t []).at? := by
  let sought : Option Located → Bool := fun l? => l?.any fun l => l.kind ∈ kinds
  refine ⟨(addresses t).filter (sought ∘ (Located.mk t []).at?), (pairwise_addresses t).filter _,
    fun a => ?_, ?_⟩
  · rw [List.mem_filter]
    constructor
    · rintro ⟨-, h⟩
      obtain ⟨l, hl, hkind⟩ := (Option.any_eq_true _ _).mp h
      exact ⟨l, hl, of_decide_eq_true hkind⟩
    · rintro ⟨l, hl, hkind⟩
      refine ⟨mem_addresses_of_at? hl, ?_⟩
      simp [sought, hl, hkind]
  · rw [← List.filter_map, ← map_preorder, ← nodes_eq_preorder, List.filter_map]
    rfl

/-- The starts of nodes never decrease along a nested outline. -/
theorem Tree.Nested.start_le {t : Tree} (h : t.Nested) :
    t.nodes.Pairwise fun a b => a.tree.start ≤ b.tree.start := by
  refine h.pairwise_nodes.imp_of_mem ?_
  intro a b ha hb hab
  have hspan := (h a ha).start_le_stop
  rcases hab with hstop | ⟨c, hc, hstart, -⟩
  · exact Nat.le_trans hspan hstop
  · exact Nat.le_trans ((h a ha).inside c hc).1 hstart

/-! ## The search -/

/-- The loop comes to an end, after one turn for every node; what it has found then are the nodes of
the kinds as the walk visits them, which is in preorder; each has one address, and none is left out;
and in a nested outline their starts never decrease. -/
theorem Tree.search_preorder (t : Tree) (kinds : List Kind) :
    (∀ n, (Search.after kinds n (Search.start t)).waiting = [] ↔ t.size ≤ n) ∧
      (∀ n, t.size ≤ n → (Search.after kinds n (Search.start t)).found = t.nodesOf kinds) ∧
      t.nodesOf kinds = (t.preorder []).filter (fun l => l.kind ∈ kinds) ∧
      (∃ places : List (List Nat), places.Pairwise (· < ·) ∧
        (∀ a, a ∈ places ↔ ∃ l, (Located.mk t []).at? a = some l ∧ l.kind ∈ kinds) ∧
        (t.nodesOf kinds).map some = places.map (Located.mk t []).at?) ∧
      (t.Nested → ((t.nodesOf kinds).map fun l => l.tree.start).Pairwise (· ≤ ·)) := by
  refine ⟨fun n => ?_, fun n hn => ?_, ?_, exists_addresses t kinds, fun h => ?_⟩
  · exact Search.waiting_after_eq_nil_iff kinds n [⟨t, []⟩] []
  · have hvisit : visit n [⟨t, []⟩] = t.nodes := by
      rw [visit_eq_take, nodes_eq_preorder, List.flatMap_singleton,
        List.take_of_length_le (by rw [length_preorder]; exact hn)]
    rw [Search.start, Search.found_after, List.reverse_singleton, hvisit, List.nil_append, nodesOf]
  · rw [nodesOf, nodes_eq_preorder]
  · rw [List.pairwise_map]
    exact h.start_le.filter _

/-- A script with a literal in a substitution of a template, and one behind the template. -/
def substitutionScript : Grammar.Script where
  text := "f(`$\x7brequire('a')\x7d`, 'b')".toList.toArray
  markup := false

/-- The kinds of the literals that can name a module. -/
def literalKinds : List Kind := [.string, .templateString]

theorem search_preorder_substitution :
    substitutionScript.outline.size ≤ 12 ∧ substitutionScript.outline.Nested ∧
      (Search.after literalKinds 12 (Search.start substitutionScript.outline)).found.map
        (fun l => l.tree.start) = [2, 13, 21] ∧
      [2, 13, 21].Pairwise (· ≤ ·) := by
  have hsize : substitutionScript.outline.size ≤ 12 := by decide +kernel
  have hnested : substitutionScript.outline.Nested :=
    nested_of_placed substitutionScript.outline_placed
  have hstarts : (substitutionScript.outline.nodesOf literalKinds).map
      (fun l => l.tree.start) = [2, 13, 21] := by
    decide +kernel
  obtain ⟨-, hfound, -, -, horder⟩ :=
    Tree.search_preorder substitutionScript.outline literalKinds
  refine ⟨hsize, hnested, ?_, ?_⟩
  · rw [hfound 12 hsize, hstarts]
  · rw [← hstarts]
    exact horder hnested

end ImportAudit.Outline
