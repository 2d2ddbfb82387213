/-
# ImportAudit.Proofs.Reference.Boundary — whether a call of `import` stands for a type.

An `import(...)` that names a module stands for a type if some node above it opens a type position
and no scope boundary is met before (`inTypePosition_iff`).  So nothing above a boundary matters: a
body that is a boundary may stand at any offset below any nodes, over any text, and what its calls of
`import` stand for is the same (`importKind?_within`).
-/
import ImportAudit.Proofs.Outline.Shift
import ImportAudit.Reference.Kind

namespace ImportAudit.Outline

open Outline.Tree

deriving instance DecidableEq for Located

/-! ## Boundaries and type positions by the names of kinds -/

/-- The names of the kinds that shield what lies below them. -/
def Kind.boundaryNames : List String := ["program", "statement_block", "expression_statement"]

/-- The names of the kinds that open a type position, beside those that end in `_type`. -/
def Kind.contextNames : List String :=
  ["type_query", "type_annotation", "type_alias_declaration", "type_arguments",
    "opting_type_annotation", "omitting_type_annotation"]

/-- The kind opens a type position, by its name. -/
def Kind.OpensType (k : Kind) : Prop :=
  k.name ∈ contextNames ∨ "_type".toList <:+ k.name.toList

instance (k : Kind) : Decidable k.OpensType := inferInstanceAs (Decidable (_ ∨ _))

theorem Kind.isScopeBoundary_iff (k : Kind) :
    k.isScopeBoundary = true ↔ k.name ∈ boundaryNames := by
  cases k <;> decide

theorem Kind.isTypeContext_iff (k : Kind) : k.isTypeContext = true ↔ k.OpensType := by
  cases k <;> decide

/-- Of the nodes above a node, innermost first, those that are met before any boundary. -/
def beforeBoundary (above : List Tree) : List Tree :=
  above.takeWhile fun t => t.kind.name ∉ Kind.boundaryNames

theorem inTypePosition_iff (above : List Tree) :
    inTypePosition above = true ↔ ∃ t ∈ beforeBoundary above, t.kind.OpensType := by
  induction above with
  | nil => simp [inTypePosition, beforeBoundary]
  | cons t above ih =>
      rw [inTypePosition, beforeBoundary]
      by_cases hbound : t.kind.isScopeBoundary = true
      · have hname := (Kind.isScopeBoundary_iff _).mp hbound
        simp [hbound, hname]
      · have hname := (not_congr (Kind.isScopeBoundary_iff _)).mp hbound
        rw [if_neg hbound, List.takeWhile_cons_of_pos (by simpa using hname), Bool.or_eq_true,
          ih, Kind.isTypeContext_iff]
        simp only [List.mem_cons, exists_eq_or_imp]
        rfl

/-- What lies behind a boundary does not matter. -/
theorem inTypePosition_append {inner : List Tree}
    (h : ∃ t ∈ inner, t.kind.isScopeBoundary = true) (outer : List Tree) :
    inTypePosition (inner ++ outer) = inTypePosition inner := by
  induction inner with
  | nil => simp at h
  | cons t inner ih =>
      rw [List.cons_append, inTypePosition, inTypePosition]
      by_cases hbound : t.kind.isScopeBoundary = true
      · rw [if_pos hbound, if_pos hbound]
      · have hinner : ∃ u ∈ inner, u.kind.isScopeBoundary = true := by
          obtain ⟨u, hu, hkind⟩ := h
          rcases List.mem_cons.mp hu with rfl | hu
          · exact absurd hkind hbound
          · exact ⟨u, hu, hkind⟩
        rw [if_neg hbound, if_neg hbound, ih hinner]

/-! ## Trees whose kinds stay -/

section Kinds

variable {f : Tree → Tree} (hf : ∀ t, (f t).kind = t.kind)
include hf

theorem inTypePosition_map (above : List Tree) :
    inTypePosition (above.map f) = inTypePosition above := by
  induction above with
  | nil => rfl
  | cons t above ih => rw [List.map_cons, inTypePosition, inTypePosition, ih, hf]

/-- The first that is no comment stays the first. -/
theorem find?_map_of_kind (ts : List Tree) :
    (ts.map f).find? (fun t => t.kind ≠ .comment) =
      (ts.find? fun t => t.kind ≠ .comment).map f := by
  rw [List.find?_map]
  simp only [Function.comp_def, hf]

end Kinds

/-! ## Calls of import -/

section Shift

variable (d : Nat)

theorem firstArgument?_shift (t : Tree) :
    (t.shift d).firstArgument? = t.firstArgument?.map (shift d) := by
  rw [firstArgument?, children_shift, find?_map_of_kind (kind_shift d), firstArgument?]

theorem function?_shift (t : Tree) : (t.shift d).function? = t.function?.map (shift d) := by
  rw [function?, children_shift, List.head?_map, function?]

end Shift

/-- The literal is the first argument of a call of `import`, as it counts, and the call lies right
below the nodes `above`. -/
structure Located.ImportArgument (l : Located) (above : List Tree) : Prop where
  literal : l.kind = .string ∨
    l.kind = .templateString ∧ ∀ c ∈ l.tree.children, c.kind ≠ .templateSubstitution
  call : ∃ arguments call function, l.above = arguments :: call :: above ∧
    arguments.kind = .arguments ∧ call.kind = .callExpression ∧
    arguments.firstArgument?.map Tree.start = some l.tree.start ∧
    call.function? = some function ∧ function.kind = .importWord

theorem Located.ImportArgument.importKind?_eq {l : Located} {above : List Tree}
    (h : l.ImportArgument above) (text : Array Char) :
    l.importKind? text =
      some (if inTypePosition above then .importType else .dynamicImport) := by
  obtain ⟨arguments, call, function, habove, harguments, hcall, hfirst, hfunction, hword⟩ := h.call
  have hform : l.callKind? text =
      some (if inTypePosition above then .importType else .dynamicImport) := by
    unfold callKind?
    rw [habove]
    dsimp only
    rw [if_pos ⟨harguments, hcall, hfirst⟩, hfunction]
    dsimp only
    rw [if_pos hword]
  unfold importKind?
  rcases h.literal with hkind | ⟨hkind, hplain⟩
  · rw [hkind, habove, List.head?_cons, Option.map_some, harguments]
    exact hform
  · rw [hkind]
    dsimp only
    rw [if_neg, hform]
    rw [List.any_eq_true]
    rintro ⟨c, hc, hsub⟩
    exact hplain c hc (of_decide_eq_true hsub)

/-- A literal that counts as the argument of a call does so wherever the call stands. -/
theorem Located.ImportArgument.within {l : Located} {above : List Tree}
    (h : l.ImportArgument above) (d : Nat) (outer : List Tree) :
    (l.within d outer).ImportArgument (above.map (shift d) ++ outer) where
  literal := by
    have hkind : (l.within d outer).kind = l.kind := kind_shift d l.tree
    rw [hkind]
    refine h.literal.imp_right (And.imp_right fun hplain c hc => ?_)
    rw [Located.within, children_shift] at hc
    obtain ⟨b, hb, rfl⟩ := List.mem_map.mp hc
    rw [kind_shift]
    exact hplain b hb
  call := by
    obtain ⟨arguments, call, function, habove, harguments, hcall, hfirst, hfunction, hword⟩ :=
      h.call
    refine ⟨arguments.shift d, call.shift d, function.shift d, ?_, ?_, ?_, ?_, ?_, ?_⟩
    · rw [Located.within, habove, List.map_cons, List.map_cons, List.cons_append, List.cons_append]
    · rw [kind_shift, harguments]
    · rw [kind_shift, hcall]
    · obtain ⟨c, hc, hstart⟩ := Option.map_eq_some_iff.mp hfirst
      rw [firstArgument?_shift, hc, Option.map_some, Option.map_some, start_shift, hstart,
        Located.within, start_shift]
    · rw [function?_shift, hfunction, Option.map_some]
    · rw [kind_shift, hword]

/-- A literal that counts as the argument of a call where a body stands counts as such in the body
itself. -/
theorem Located.ImportArgument.of_within {l : Located} {d : Nat} {outer above inner : List Tree}
    {arguments call : Tree} (h : (l.within d outer).ImportArgument above)
    (habove : l.above = arguments :: call :: inner) : l.ImportArgument inner := by
  obtain ⟨arguments', call', function', habove', harguments, hcall, hfirst, hfunction, hword⟩ :=
    h.call
  rw [Located.within, habove, List.map_cons, List.map_cons, List.cons_append,
    List.cons_append] at habove'
  obtain ⟨rfl, hrest⟩ := List.cons.inj habove'
  obtain ⟨rfl, -⟩ := List.cons.inj hrest
  rw [firstArgument?_shift] at hfirst
  rw [function?_shift] at hfunction
  obtain ⟨_, hmoved, hstart⟩ := Option.map_eq_some_iff.mp hfirst
  obtain ⟨c, hc, rfl⟩ := Option.map_eq_some_iff.mp hmoved
  obtain ⟨function, hcallee, rfl⟩ := Option.map_eq_some_iff.mp hfunction
  rw [Located.within, start_shift, start_shift, Nat.add_right_cancel_iff] at hstart
  rw [kind_shift] at harguments hcall hword
  refine ⟨?_, arguments, call, function, habove, harguments, hcall, ?_, hcallee, hword⟩
  · have hkind : (l.within d outer).kind = l.kind := kind_shift d l.tree
    have hliteral := h.literal
    rw [hkind] at hliteral
    refine hliteral.imp_right (And.imp_right fun hplain c hc => ?_)
    have hmem : c.shift d ∈ (l.within d outer).tree.children := by
      rw [Located.within, children_shift]
      exact List.mem_map_of_mem hc
    have hne := hplain _ hmem
    rwa [kind_shift] at hne
  · rw [hc, Option.map_some, hstart]

/-- A chain that leads up to a body, and beyond it where the body stands, begins with a node of the
body if it does not begin with the body. -/
theorem exists_cons_of_mem {body t' : Tree} {chain outer rest : List Tree} {d : Nat}
    (hmem : body ∈ chain) (hchain : chain.map (shift d) ++ outer = t' :: rest)
    (hne : body.shift d ≠ t') :
    ∃ t inner, chain = t :: inner ∧ body ∈ inner ∧ inner.map (shift d) ++ outer = rest := by
  cases chain with
  | nil => cases hmem
  | cons t inner =>
      rw [List.map_cons, List.cons_append] at hchain
      obtain ⟨rfl, hrest⟩ := List.cons.inj hchain
      have hinner : body ∈ inner :=
        (List.mem_cons.mp hmem).resolve_left fun heq => hne (congrArg (shift d) heq)
      exact ⟨t, inner, rfl, hinner, hrest⟩

/-- Between a literal that counts as the argument of a call and a boundary that it lies in there are
the arguments and the call. -/
theorem Located.ImportArgument.exists_inner {body : Tree}
    (hbody : body.kind.isScopeBoundary = true) {l : Located} (hl : l ∈ body.nodes) {d : Nat}
    {outer above : List Tree} (h : (l.within d outer).ImportArgument above) :
    ∃ arguments call inner, l.above = arguments :: call :: inner ∧ body ∈ inner := by
  obtain ⟨arguments', call', -, habove, harguments, hcall, -⟩ := h.call
  -- the body is neither a literal nor arguments nor a call
  have hne : ∀ {t' : Tree}, t'.kind.isScopeBoundary = false → body.shift d ≠ t' := by
    rintro t' hkind rfl
    rw [kind_shift, hbody] at hkind
    cases hkind
  rcases eq_or_mem_above hl with rfl | hmem
  · rcases h.literal with hkind | ⟨hkind, -⟩
    · exact absurd rfl (hne (congrArg Kind.isScopeBoundary hkind))
    · exact absurd rfl (hne (congrArg Kind.isScopeBoundary hkind))
  · obtain ⟨arguments, chain, hchain, hmem, hrest⟩ :=
      exists_cons_of_mem hmem habove (hne (by rw [harguments]; rfl))
    obtain ⟨call, inner, rfl, hmem, -⟩ :=
      exists_cons_of_mem hmem hrest (hne (by rw [hcall]; rfl))
    exact ⟨arguments, call, inner, hchain, hmem⟩

/-- Below a boundary, what a call of `import` stands for is told by the nodes between the call and
the boundary, wherever this one stands. -/
theorem importKind?_within {body : Tree} (hbody : body.kind.isScopeBoundary = true) {l : Located}
    {above : List Tree} (h : l.ImportArgument above) (hmem : body ∈ above) (d : Nat)
    (outer : List Tree) (text : Array Char) :
    (l.within d outer).importKind? text =
      some (if inTypePosition above then .importType else .dynamicImport) := by
  have hbound : ∃ t ∈ above.map (shift d), t.kind.isScopeBoundary = true :=
    ⟨body.shift d, List.mem_map_of_mem hmem, by rw [kind_shift, hbody]⟩
  rw [(h.within d outer).importKind?_eq text, inTypePosition_append hbound,
    inTypePosition_map (kind_shift d)]

/-- A call of `import` that names a module stands for a type if, of the nodes above it, one that is
met before any boundary opens a type position, and for a value otherwise.  So a body that is a
boundary may be moved from one tree into another one, over another text: its nodes are nodes there,
and its calls of `import` stand for what they stood for. -/
theorem importKind?_shielded (t : Tree) (text : Array Char) :
    (∀ l ∈ t.nodes, ∀ above, l.ImportArgument above →
      (l.importKind? text = some .importType ↔
        ∃ a ∈ beforeBoundary above, a.kind.OpensType) ∧
      (l.importKind? text = some .dynamicImport ↔
        ¬∃ a ∈ beforeBoundary above, a.kind.OpensType)) ∧
    (∀ (body : Tree) (d : Nat) (outer : List Tree), body.kind.name ∈ Kind.boundaryNames →
      ⟨body.shift d, outer⟩ ∈ t.nodes →
      ∀ (t' : Tree) (text' : Array Char) (d' : Nat) (outer' : List Tree),
        ⟨body.shift d', outer'⟩ ∈ t'.nodes →
        ∀ l ∈ body.nodes, ∀ above, (l.within d outer).ImportArgument above →
          l.within d outer ∈ t.nodes ∧ l.within d' outer' ∈ t'.nodes ∧
          (l.within d' outer').importKind? text' = (l.within d outer).importKind? text) := by
  constructor
  · intro l _ above h
    rw [h.importKind?_eq text, ← inTypePosition_iff]
    cases inTypePosition above with
    | true => simp
    | false => simp
  · intro body d outer hname hin t' text' d' outer' hin' l hl above h
    have hbody := (Kind.isScopeBoundary_iff _).mpr hname
    obtain ⟨arguments, call, inner, habove, hmem⟩ := h.exists_inner hbody hl
    have hbelow := h.of_within habove
    refine ⟨within_mem_nodes hin hl, within_mem_nodes hin' hl, ?_⟩
    rw [importKind?_within hbody hbelow hmem, importKind?_within hbody hbelow hmem]

/-- A block with a call of `import` in a type and one in a value, as it begins a script. -/
def importBlock : Tree :=
  let typeCall : Tree :=
    .node .callExpression 16 27
      [.node .importWord 16 22 [], .node .arguments 22 27 [.node .string 23 26 []]]
  let valueCall : Tree :=
    .node .callExpression 30 41
      [.node .importWord 30 36 [], .node .arguments 36 41 [.node .string 37 40 []]]
  let ascription : Tree := .node .typeAscription 7 27 [.node .typeQuery 9 27 [typeCall]]
  let declarator : Tree := .node .declaration 2 41 [.node .identifier 6 7 [], ascription, valueCall]
  .node .statementBlock 0 43 [.node .declaration 2 41 [declarator]]

/-- A script that is the block alone. -/
def blockScript : Grammar.Script where
  text := "\x7b let x: typeof import('a') = import('b') \x7d".toList.toArray
  markup := false

/-- A script with the block as the body of a method that is declared with a type. -/
def methodScript : Grammar.Script where
  text := "class C \x7b m(): T \x7b let x: typeof import('a') = import('b') \x7d \x7d".toList.toArray
  markup := false

/-- The nodes above the block in the second script. -/
def aboveMethodBody : List Tree :=
  let method : Tree :=
    .node .declaration 8 62 [.node .typeAscription 13 16 [], importBlock.shift 17]
  let declaration : Tree := .node .declaration 0 62 [method]
  [method, declaration, .node .program 0 62 [declaration]]

/-- The literal in a type. -/
def typeLiteral : Located :=
  (importBlock.nodes.find? fun l => l.kind = .string).getD ⟨importBlock, []⟩

theorem importKind?_shielded_inMethod :
    ⟨importBlock.shift 0, [blockScript.outline]⟩ ∈ blockScript.outline.nodes ∧
      ⟨importBlock.shift 17, aboveMethodBody⟩ ∈ methodScript.outline.nodes ∧
      (typeLiteral.within 0 [blockScript.outline]).importKind? blockScript.text =
        some .importType ∧
      (typeLiteral.within 17 aboveMethodBody).importKind? methodScript.text =
        some .importType := by
  have hin : ⟨importBlock.shift 0, [blockScript.outline]⟩ ∈ blockScript.outline.nodes := by
    decide +kernel
  have hin' : ⟨importBlock.shift 17, aboveMethodBody⟩ ∈ methodScript.outline.nodes := by
    decide +kernel
  have hmem : typeLiteral ∈ importBlock.nodes := by decide +kernel
  have hcounted : (typeLiteral.within 0 [blockScript.outline]).ImportArgument
      ((typeLiteral.within 0 [blockScript.outline]).above.drop 2) :=
    { literal := .inl (by decide +kernel)
      call := ⟨_, _, _, rfl, rfl, rfl, rfl, rfl, rfl⟩ }
  obtain ⟨hkinds, hmoved⟩ := importKind?_shielded blockScript.outline blockScript.text
  obtain ⟨hnode, -, hsame⟩ := hmoved importBlock 0 _ (by decide) hin methodScript.outline
    methodScript.text 17 aboveMethodBody hin' typeLiteral hmem _ hcounted
  have htype := (hkinds _ hnode _ hcounted).1.mpr (by decide +kernel)
  exact ⟨hin, hin', htype, hsame.trans htype⟩

end ImportAudit.Outline
