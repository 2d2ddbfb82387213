/-
# ImportAudit.Proofs.Reference.Comment — a comment before the first argument of a call.

A comment that is put between the parenthesis of a call and its first argument widens what it stands
in and moves what stands behind it.  No literal and no name reads differently for that, and every
call but the one keeps its first argument.  The arguments of that call skip comments, but not those
of markup: with one of these the literal behind it is no first argument any more, and the reference
that it makes is lost, where any other comment leaves all references what they were
(`SourceFile.references_of_comments`).
-/
import ImportAudit.Proofs.Outline.Insertion
import ImportAudit.Proofs.Reference.Boundary
import ImportAudit.Proofs.Reference.Layout
import Mathlib.Data.List.TakeWhile

namespace ImportAudit

open Outline Outline.Tree

namespace Outline

/-! ## First arguments -/

section Tree

variable {i : Insertion} {t : Tree}

theorem Insertion.find?_map_tree (i : Insertion) (t : Tree) :
    (t.children.map i.tree).find? (fun c => c.kind ≠ .comment) = t.firstArgument?.map i.tree :=
  find?_map_of_kind i.kind_tree t.children

theorem Insertion.firstArgument?_of_not_hosts (h : ¬i.Hosts t) :
    (i.tree t).firstArgument? = t.firstArgument?.map i.tree := by
  rw [Tree.firstArgument?, i.children_tree_of_not_hosts h, find?_map_tree]

/-- A comment is skipped, wherever it stands. -/
theorem Insertion.firstArgument?_of_comment (h : i.kind = .comment) :
    (i.tree t).firstArgument? = t.firstArgument?.map i.tree := by
  by_cases hosts : i.Hosts t
  · have hnode : i.node.kind = .comment := h
    rw [Tree.firstArgument?, i.children_tree, if_pos hosts, among, List.find?_append,
      List.find?_cons_of_neg (by simp [hnode]), ← List.find?_append,
      List.takeWhile_append_dropWhile, find?_map_tree]
  · exact firstArgument?_of_not_hosts hosts

/-- What is not skipped is the first argument of its host if it is put before the one there was. -/
theorem Insertion.firstArgument?_of_hosts (hkind : i.kind ≠ .comment) (hosts : i.Hosts t)
    (hbehind : ∀ c, t.firstArgument? = some c → i.position ≤ c.start) :
    (i.tree t).firstArgument? = some i.node := by
  have hnode : i.node.kind ≠ .comment := hkind
  have hbefore : ((t.children.map i.tree).takeWhile fun c => c.start < i.position).find?
      (fun c => c.kind ≠ .comment) = none := by
    rw [Option.eq_none_iff_forall_not_mem]
    intro d hd
    -- the first argument would begin before the comment
    have hmem := List.mem_of_find?_eq_some (Option.mem_def.mp hd)
    have hkept := List.mem_takeWhile_imp hmem
    have hstart : d.start < i.position := of_decide_eq_true hkept
    have hfirst := i.find?_map_tree t
    rw [← List.takeWhile_append_dropWhile (p := fun c : Tree => c.start < i.position)
      (l := t.children.map i.tree), List.find?_append, hd, Option.some_or] at hfirst
    obtain ⟨c, hc, rfl⟩ := Option.map_eq_some_iff.mp hfirst.symm
    have hposition := hbehind c hc
    rw [start_tree, moveStart, if_pos hposition] at hstart
    omega
  rw [Tree.firstArgument?, i.children_tree, if_pos hosts, among, List.find?_append, hbefore,
    Option.none_or, List.find?_cons_of_pos (by simp [hnode])]

theorem Insertion.start_firstArgument?_iff
    (h : (i.tree t).firstArgument? = t.firstArgument?.map i.tree) (start : Nat) :
    (i.tree t).firstArgument?.map Tree.start = some (i.moveStart start) ↔
      t.firstArgument?.map Tree.start = some start := by
  rw [h]
  cases t.firstArgument? with
  | none => exact ⟨nofun, nofun⟩
  | some c => simp only [Option.map_some, start_tree, Option.some.injEq, moveStart_inj]

theorem Insertion.function?_tree (h : ¬i.Hosts t) :
    (i.tree t).function? = t.function?.map i.tree := by
  rw [Tree.function?, i.children_tree_of_not_hosts h, List.head?_map, Tree.function?]

end Tree

/-! ## Literals that make references -/

/-- A literal right below arguments names a module as the first of them. -/
theorem Located.callKind?_of_importKind? {text : Array Char} {l : Located} {arguments : Tree}
    {above : List Tree} (habove : l.above = arguments :: above)
    (harguments : arguments.kind = .arguments) {kind : ImportKind}
    (h : l.importKind? text = some kind) : l.callKind? text = some kind := by
  unfold importKind? at h
  rw [habove, List.head?_cons, Option.map_some, harguments] at h
  split at h
  · split at h
    · cases h
    · exact h
  · exact h
  · cases h

theorem Located.firstArgument?_of_callKind? {text : Array Char} {l : Located} {arguments : Tree}
    {above : List Tree} (habove : l.above = arguments :: above) {kind : ImportKind}
    (h : l.callKind? text = some kind) :
    arguments.firstArgument?.map Tree.start = some l.tree.start := by
  unfold callKind? at h
  rw [habove] at h
  split at h
  · next heq =>
    cases heq
    split at h
    · next hfirst => exact hfirst.2.2
    · cases h
  · cases h

/-- A literal right below arguments names a module only where the first of them begins. -/
theorem Located.firstArgument?_of_importKind? {text : Array Char} {l : Located} {arguments : Tree}
    {above : List Tree} (habove : l.above = arguments :: above)
    (harguments : arguments.kind = .arguments) (h : l.importKind? text ≠ none) :
    arguments.firstArgument?.map Tree.start = some l.tree.start := by
  obtain ⟨kind, hkind⟩ := Option.ne_none_iff_exists'.mp h
  exact firstArgument?_of_callKind? habove (callKind?_of_importKind? habove harguments hkind)

/-- What makes a reference is a leaf, and lies in the text with the two quotes that it has. -/
theorem leaf_of_importKind? {text : Array Char} {outline : Tree} (hp : Placed text outline)
    {l : Located} (hl : l ∈ outline.nodes) (h : l.importKind? text ≠ none) :
    l.tree.children = [] ∧ l.tree.start + 2 ≤ l.tree.stop ∧ l.tree.start < text.size := by
  obtain ⟨kind, hkind⟩ := Option.ne_none_iff_exists'.mp h
  obtain ⟨hleaf, ⟨q, -, hroom, hquote, -⟩, -⟩ :=
    Reference.quoted_of_ofLocated? hp hl (Reference.ofLocated?_of_importKind? hkind)
  obtain ⟨hsize, -⟩ := Array.getElem?_eq_some_iff.mp hquote
  exact ⟨hleaf, hroom, hsize⟩

/-- Two literals that make references do not begin at one place. -/
theorem eq_of_start_eq {text : Array Char} {outline : Tree} (hp : Placed text outline)
    {a b : Located} (ha : a ∈ outline.nodes) (hb : b ∈ outline.nodes)
    (hkind : a.importKind? text ≠ none) (hkind' : b.importKind? text ≠ none)
    (hstart : a.tree.start = b.tree.start) : a = b := by
  obtain ⟨hleaf, hroom, -⟩ := leaf_of_importKind? hp ha hkind
  obtain ⟨hleaf', hroom', -⟩ := leaf_of_importKind? hp hb hkind'
  by_contra hne
  rcases precedes_or_precedes hp ha hb hne with hbefore | hbefore
  · have hstop := hbefore.stop_le hleaf
    omega
  · have hstop := hbefore.stop_le hleaf'
    omega

/-! ## A comment among arguments -/

/-- The second text is the first with the comment, which is put among the arguments of a call. -/
structure Insertion.PutAmong (i : Insertion) (outline : Tree) (text text' : Array Char)
    (host : Located) : Prop where
  placed : Placed text outline
  mem : host ∈ outline.nodes
  kind : host.tree.kind = .arguments
  inner : host.tree.children ≠ []
  hosts : i.Hosts host.tree
  text_eq : text'.toList = i.inText text.toList
  position_le : i.position ≤ text.size

namespace Insertion.PutAmong

variable {i : Insertion} {outline : Tree} {text text' : Array Char} {host a : Located}

/-- No node of another kind is a host. -/
theorem not_hosts (h : i.PutAmong outline text text' host) (ha : a ∈ outline.nodes)
    (hkind : a.tree.kind ≠ .arguments) : ¬i.Hosts a.tree := by
  intro hosts
  have heq := eq_of_hosts h.placed h.mem h.hosts ha hosts
  exact hkind (heq ▸ h.kind)

theorem not_within (h : i.PutAmong outline text text' host) (ha : a ∈ outline.nodes)
    (hleaf : a.tree.children = []) : ¬i.Within a.tree.start a.tree.stop :=
  not_within_of_leaf h.placed h.mem h.hosts h.inner ha hleaf

/-- A name reads as before. -/
theorem textIn_eq (h : i.PutAmong outline text text' host) (ha : a ∈ outline.nodes)
    (hkind : a.tree.kind = .identifier) : (i.tree a.tree).textIn text' = a.tree.textIn text := by
  have hleaf : a.tree.children = [] := by
    have hplaced := (inside_of_mem_nodes h.placed ha).placed
    obtain ⟨⟨k, s, e, cs⟩, above⟩ := a
    obtain rfl : k = .identifier := hkind
    simp only [Placed] at hplaced
    exact hplaced.1 rfl
  unfold Tree.textIn
  rw [extract_tree h.text_eq h.position_le (h.not_within ha hleaf)]

/-- A call names a module in the form from before if the literal is its first argument as it was
before. -/
theorem callKind?_eq (h : i.PutAmong outline text text' host) (ha : a ∈ outline.nodes)
    (hfirst : ∀ arguments above, a.above = arguments :: above →
      ((i.tree arguments).firstArgument?.map Tree.start = some (i.tree a.tree).start ↔
        arguments.firstArgument?.map Tree.start = some a.tree.start)) :
    (i.located a).callKind? text' = a.callKind? text := by
  unfold Located.callKind? located
  cases habove : a.above with
  | nil => rfl
  | cons arguments rest =>
      cases rest with
      | nil => rfl
      | cons call above =>
          have hfirst := hfirst arguments (call :: above) habove
          have harguments := mem_nodes_of_above ha habove
          have hcall : ⟨call, above⟩ ∈ outline.nodes := mem_nodes_of_above harguments rfl
          simp only [List.map_cons, kind_tree, hfirst, inTypePosition_map i.kind_tree]
          by_cases hkind : call.kind = .callExpression
          · have hnot : ¬i.Hosts call := h.not_hosts hcall (by simp [hkind])
            rw [function?_tree hnot]
            cases hfunction : call.function? with
            | none => rfl
            | some function =>
                have hmem : ⟨function, call :: above⟩ ∈ outline.nodes :=
                  mem_nodes_of_mem_children hcall
                    (List.mem_map.2 ⟨function, List.mem_of_head? hfunction, rfl⟩)
                simp only [Option.map_some, kind_tree]
                by_cases hname : function.kind = .identifier
                · simp only [h.textIn_eq hmem hname]
                · simp only [hname, false_and]
          · simp only [hkind, false_and, and_false, if_false]

/-- A literal names a module in the form from before if the call does that it is an argument of. -/
theorem importKind?_eq (h : i.PutAmong outline text text' host) (ha : a ∈ outline.nodes)
    (hcall : (i.located a).callKind? text' = a.callKind? text) :
    (i.located a).importKind? text' = a.importKind? text := by
  have hkind : (i.located a).kind = a.kind := i.kind_tree a.tree
  unfold Located.importKind?
  rw [hkind, hcall]
  split
  · next htemplate =>
    have hkind : a.tree.kind = .templateString := htemplate
    have hnot : ¬i.Hosts a.tree := h.not_hosts ha (by simp [hkind])
    have hsubs : (i.located a).tree.children.any (fun t => t.kind = .templateSubstitution) =
        a.tree.children.any fun t => t.kind = .templateSubstitution := by
      rw [located, i.children_tree_of_not_hosts hnot, List.any_map]
      simp only [Function.comp_def, kind_tree]
    rw [hsubs]
  · rw [located, List.head?_map, Option.map_map]
    simp only [Function.comp_def, kind_tree]
  · rfl

/-- Before a comment that is skipped every literal names a module in the form from before. -/
theorem importKind?_of_comment (h : i.PutAmong outline text text' host) (hkind : i.kind = .comment)
    (ha : a ∈ outline.nodes) : (i.located a).importKind? text' = a.importKind? text := by
  refine h.importKind?_eq ha (h.callKind?_eq ha fun arguments above _ => ?_)
  rw [i.start_tree]
  exact start_firstArgument?_iff (firstArgument?_of_comment hkind) a.tree.start

variable {literal : Located}

/-- With a comment that is not skipped no literal right below the host names a module. -/
theorem importKind?_of_host (h : i.PutAmong outline text text' host) (hkind : i.kind ≠ .comment)
    (hlength : 0 < i.length)
    (hbehind : ∀ c, host.tree.firstArgument? = some c → i.position ≤ c.start)
    (habove : a.above = host.tree :: host.above) : (i.located a).importKind? text' = none := by
  have habove' : (i.located a).above = i.tree host.tree :: host.above.map i.tree := by
    rw [located, habove, List.map_cons]
  by_contra hnames
  have hfirst :=
    Located.firstArgument?_of_importKind? habove' ((i.kind_tree _).trans h.kind) hnames
  rw [firstArgument?_of_hosts hkind h.hosts hbehind, Option.map_some, Option.some.injEq] at hfirst
  have hstart : i.position = i.moveStart a.tree.start := hfirst.trans (i.start_tree a.tree)
  unfold moveStart at hstart
  split at hstart <;> omega

/-- The literal behind a comment that is not skipped names no module, and every other one does in
the form from before. -/
theorem importKind?_of_not_comment (h : i.PutAmong outline text text' host)
    (hkind : i.kind ≠ .comment) (hlength : 0 < i.length) (hmem : literal ∈ outline.nodes)
    (hcounted : literal.importKind? text ≠ none)
    (habove : literal.above = host.tree :: host.above) (hbefore : i.position ≤ literal.tree.start)
    (ha : a ∈ outline.nodes) :
    (i.located a).importKind? text' =
      if a.tree.start = literal.tree.start then none else a.importKind? text := by
  have hfirst : host.tree.firstArgument?.map Tree.start = some literal.tree.start :=
    Located.firstArgument?_of_importKind? habove h.kind hcounted
  by_cases hhost : a.above = host.tree :: host.above
  · rw [h.importKind?_of_host hkind hlength ?_ hhost]
    · split
      · rfl
      · next hne =>
        by_contra hnames
        have hsame := Located.firstArgument?_of_importKind? hhost h.kind (Ne.symm hnames)
        exact hne (Option.some.inj (hsame.symm.trans hfirst))
    · intro c hc
      rw [hc, Option.map_some, Option.some.injEq] at hfirst
      omega
  · rw [h.importKind?_eq ha (h.callKind?_eq ha fun arguments above heq => ?_)]
    · split
      · next hstart =>
        by_contra hnames
        have hsame := eq_of_start_eq h.placed ha hmem hnames hcounted hstart
        exact hhost (hsame ▸ habove)
      · rfl
    · have hnot : ¬i.Hosts arguments := by
        intro hosts
        have hsame := eq_of_hosts h.placed h.mem h.hosts (mem_nodes_of_above ha heq) hosts
        rw [heq, ← hsame] at hhost
        exact hhost rfl
      rw [i.start_tree]
      exact start_firstArgument?_iff (firstArgument?_of_not_hosts hnot) a.tree.start

end Insertion.PutAmong

end Outline

/-! ## References -/

namespace Reference

/-- What a reference says of its module: the text between the quotes, and the form. -/
def named (r : Reference) : String × ImportKind := (r.text, r.kind)

end Reference

namespace Outline.Insertion.PutAmong

variable {i : Insertion} {outline : Tree} {text text' : Array Char} {host a : Located}

/-- A literal that makes a reference has the name from before. -/
theorem named_ofNode (h : i.PutAmong outline text text' host) (ha : a ∈ outline.nodes)
    (hnames : a.importKind? text ≠ none) (starts starts' : Array Nat) (kind : ImportKind) :
    (Reference.ofNode text' starts' kind (i.tree a.tree)).named =
      (Reference.ofNode text starts kind a.tree).named := by
  obtain ⟨hleaf, -⟩ := leaf_of_importKind? h.placed ha hnames
  have hextract := extract_inText h.text_eq h.position_le (h.not_within ha hleaf) 1
  rw [← start_tree, ← stop_tree] at hextract
  simp only [Reference.named, Reference.ofNode, hextract]

/-- If the literals that begin where `keep` says name modules in the forms from before and no others
do, the references of these are what is left, with the names from before. -/
theorem named_ofOutline (h : i.PutAmong outline text text' host)
    (hkind : i.kind = .comment ∨ i.kind = .htmlComment) (kinds : List ImportKind)
    (keep : Nat → Bool)
    (hkeep : ∀ a ∈ outline.nodes, (i.located a).importKind? text' =
      if keep a.tree.start then a.importKind? text else none) :
    (Reference.ofOutline text' kinds (i.tree outline)).map Reference.named =
      ((Reference.ofOutline text kinds outline).filter fun r => keep r.start).map
        Reference.named := by
  have hnode : ∀ above, Reference.ofLocated? text' ⟨i.node, above⟩ = none := by
    intro above
    have hnone : Located.importKind? text' ⟨i.node, above⟩ = none := by
      rcases hkind with hkind | hkind <;>
        simp only [Located.importKind?, Located.kind, node, kind_node, hkind]
    rw [Reference.ofLocated?, hnone, Option.map_none]
  rw [Reference.ofOutline_eq_filter, Reference.ofOutline_eq_filter, List.filter_filterMap,
    List.filter_filterMap, List.filter_filterMap, List.map_filterMap, List.map_filterMap,
    nodes_eq_preorder, nodes_eq_preorder]
  refine (filterMap_preorder (fun above => ?_) [] outline).trans (List.filterMap_congr ?_)
  · rw [hnode above]
    rfl
  · intro a ha
    rw [← nodes_eq_preorder] at ha
    unfold Reference.ofLocated?
    rw [hkeep a ha]
    cases hnames : a.importKind? text with
    | none => simp
    | some kind =>
        have hsame := h.named_ofNode ha (by simp [hnames]) (Text.lineStarts text.toList).toArray
          (Text.lineStarts text'.toList).toArray kind
        have hform : ∀ (text : Array Char) (starts : Array Nat) (t : Tree),
            (Reference.ofNode text starts kind t).kind = kind := fun _ _ _ => rfl
        have hstart : (Reference.ofNode text (Text.lineStarts text.toList).toArray kind
            a.tree).start = a.tree.start := rfl
        by_cases hasked : kind ∈ kinds
        · cases hstays : keep a.tree.start with
          | false => simp [Option.filter_some, hform, hasked, hstart, hstays]
          | true => simp [Option.filter_some, hform, hasked, hstart, hstays, located, hsame]
        · cases keep a.tree.start <;> simp [Option.filter_some, hform, hasked]

end Outline.Insertion.PutAmong

/-! ## Source files -/

/-- The source file with the comment in its text. -/
def Outline.Insertion.inFile (i : Insertion) (file : SourceFile) : SourceFile where
  fileName := file.fileName
  text := String.ofList (i.inText file.text.toList)

/-- The comment is put between the parenthesis of a call and the literal that names a module as its
first argument, into no other node there; and the outline has it in that place and is otherwise the
same. -/
structure Outline.Insertion.Comments (i : Insertion) (file : SourceFile) (literal : Located) :
    Prop where
  mem : literal ∈ file.script.outline.nodes
  counted : literal.importKind? file.script.text ≠ none
  inCall : ∃ arguments above, literal.above = arguments :: above ∧ arguments.kind = .arguments ∧
    arguments.start < i.position ∧ ∀ c ∈ arguments.children, ¬i.Within c.start c.stop
  before : i.position ≤ literal.tree.start
  nonempty : i.comment ≠ []
  outline_eq : (i.inFile file).script.outline = i.tree file.script.outline

theorem Outline.Insertion.Comments.putAmong {i : Insertion} {file : SourceFile}
    {literal : Located} (h : i.Comments file literal) :
    ∃ host : Located, literal.above = host.tree :: host.above ∧
      i.PutAmong file.script.outline file.script.text (i.inFile file).script.text host := by
  obtain ⟨arguments, above, habove, hkind, hstart, houtside⟩ := h.inCall
  have hp := file.script.outline_placed
  obtain ⟨-, hroom, hsize⟩ := leaf_of_importKind? hp h.mem h.counted
  have hinside := inside_of_above hp h.mem habove
  have hstop := hinside.le_hi
  have hbefore := h.before
  have hwithin : i.Within arguments.start arguments.stop := ⟨hstart, by omega⟩
  obtain ⟨c, hc, -⟩ := List.mem_map.mp (mem_children_of_above h.mem habove)
  exact ⟨⟨arguments, above⟩, habove,
    { placed := hp
      mem := mem_nodes_of_above h.mem habove
      kind := hkind
      inner := List.ne_nil_of_mem hc
      hosts := ⟨hwithin, houtside⟩
      text_eq := String.toList_ofList
      position_le := by omega }⟩

/-- A script that calls `require` twice, the second time among the arguments of the first call. -/
def nestedCalls : SourceFile := ⟨"a.js", "require('a', require('b'))"⟩

/-- The first argument of the outer call. -/
def outerLiteral : Located :=
  let innerArguments : Outline.Tree := .node .arguments 20 25 [.node .string 21 24 []]
  let innerCall : Outline.Tree :=
    .node .callExpression 13 25 [.node .identifier 13 20 [], innerArguments]
  let arguments : Outline.Tree := .node .arguments 7 26 [.node .string 8 11 [], innerCall]
  let call : Outline.Tree := .node .callExpression 0 26 [.node .identifier 0 7 [], arguments]
  let statement : Outline.Tree := .node .expressionStatement 0 26 [call]
  ⟨.node .string 8 11 [], [arguments, call, statement, .node .program 0 26 [statement]]⟩

/-- A comment behind the first parenthesis. -/
def bundledComment : Insertion := ⟨8, "/* bundled */".toList, ['\n'], .comment⟩

/-- A comment of markup in its place. -/
def markupComment : Insertion := ⟨8, "<!-- bundled".toList, ['\n'], .htmlComment⟩

end ImportAudit
