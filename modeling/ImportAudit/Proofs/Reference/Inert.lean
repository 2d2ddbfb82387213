/-
# ImportAudit.Proofs.Reference.Inert — text that no reference depends on.

Of the text of a script the references show what stands between the quotes of their literals and
where lines begin, and the outline is asked whether a name that is called is `require`.  Comments,
regular expressions, strings and the text of templates overlap with no name and with no other
literal.  So of two texts with one outline that break their lines at the same places and differ only
inside such literals, the references are the same.
-/
import ImportAudit.Proofs.Reference.Layout

namespace ImportAudit

open Outline Outline.Tree

namespace Outline

/-! ## What comments and literals enclose -/

/-- How many characters at either end of a node mark it off from what it says, for the nodes that say
something of their own: a literal has its quotes, comments and regular expressions may be all text. -/
def Kind.margin? : Kind → Option Nat
  | .comment | .htmlComment | .regex => some 0
  | .string | .templateString | .templateLiteralType => some 1
  | _ => none

/-- The offset lies in what a comment, a regular expression, a string or a template says: between the
margins of the node, and in no substitution. -/
def Located.Encloses (l : Located) (i : Nat) : Prop :=
  match l.kind.margin? with
  | none => False
  | some margin => (l.tree.start + margin ≤ i ∧ i + margin < l.tree.stop) ∧
      ∀ c ∈ l.tree.children, ¬(c.start ≤ i ∧ i < c.stop)

instance (l : Located) (i : Nat) : Decidable (l.Encloses i) :=
  match h : l.kind.margin? with
  | none => isFalse (by simp [Located.Encloses, h])
  | some margin => decidable_of_iff ((l.tree.start + margin ≤ i ∧ i + margin < l.tree.stop) ∧
      ∀ c ∈ l.tree.children, ¬(c.start ≤ i ∧ i < c.stop)) (by simp only [Located.Encloses, h])

/-- In an outline over `text` the offset lies in what a comment or literal says that makes no
reference. -/
def Inert (text : Array Char) (outline : Tree) (i : Nat) : Prop :=
  ∃ l ∈ outline.nodes, l.importKind? text = none ∧ l.Encloses i

instance (text : Array Char) (outline : Tree) (i : Nat) : Decidable (Inert text outline i) :=
  inferInstanceAs (Decidable (∃ l ∈ outline.nodes, l.importKind? text = none ∧ l.Encloses i))

theorem Located.Encloses.margin {l : Located} {i : Nat} (h : l.Encloses i) :
    l.kind.margin? ≠ none := by
  intro hnone
  simp only [Encloses, hnone] at h

theorem Located.Encloses.within {l : Located} {i : Nat} (h : l.Encloses i) :
    l.tree.start ≤ i ∧ i < l.tree.stop := by
  unfold Encloses at h
  split at h
  · cases h
  · omega

theorem Located.Encloses.outside {l : Located} {i : Nat} (h : l.Encloses i) :
    ∀ c ∈ l.tree.children, ¬(c.start ≤ i ∧ i < c.stop) := by
  unfold Encloses at h
  split at h
  · cases h
  · exact h.2

/-- A leaf has nothing in common with what another node encloses. -/
theorem not_encloses_of_leaf {text : Array Char} {outline : Tree} (hp : Placed text outline)
    {a l : Located} (ha : a ∈ outline.nodes) (hl : l ∈ outline.nodes) (hne : a ≠ l)
    (hleaf : a.tree.children = []) {i : Nat} (hi : a.tree.start ≤ i ∧ i < a.tree.stop) :
    ¬l.Encloses i := by
  intro henc
  obtain ⟨hstart, hstop⟩ := henc.within
  rcases precedes_or_precedes hp ha hl hne with hbefore | hbefore
  · have := hbefore.stop_le hleaf
    omega
  · rcases hbefore with hle | ⟨c, hc, hcstart, hcstop⟩
    · omega
    · -- the leaf lies in a substitution
      exact henc.outside c hc (by omega)

/-! ## Texts that differ where it does not matter -/

/-- The texts have one length, break their lines at the same places, and differ only in what comments
and literals of the outline say that make no reference. -/
structure DifferInertly (outline : Tree) (text text' : Array Char) : Prop where
  size_eq : text'.size = text.size
  breaks : ∀ i < text.size, text'[i]? = some '\n' ↔ text[i]? = some '\n'
  inert : ∀ i < text.size, text'[i]? ≠ text[i]? → Inert text outline i

theorem extract_congr {text text' : Array Char} {start stop : Nat} (hsize : text'.size = text.size)
    (h : ∀ i, start ≤ i ∧ i < stop → text'[i]? = text[i]?) :
    text'.extract start stop = text.extract start stop := by
  refine Array.ext_getElem? fun k => ?_
  rw [Array.getElem?_extract, Array.getElem?_extract, hsize]
  split
  · next hk => exact h (start + k) (by omega)
  · rfl

namespace DifferInertly

variable {outline : Tree} {text text' : Array Char}

/-- A leaf that says nothing of its own, or makes a reference, reads the same in both texts. -/
theorem getElem?_eq (h : DifferInertly outline text text') (hp : Placed text outline) {a : Located}
    (ha : a ∈ outline.nodes) (hleaf : a.tree.children = [])
    (howns : a.kind.margin? = none ∨ a.importKind? text ≠ none) {i : Nat}
    (hi : a.tree.start ≤ i ∧ i < a.tree.stop) : text'[i]? = text[i]? := by
  by_contra hdiff
  have hsize := h.size_eq
  have hlt : i < text.size := by
    by_contra hge
    rw [Array.getElem?_eq_none (by omega), Array.getElem?_eq_none (by omega)] at hdiff
    exact hdiff rfl
  obtain ⟨l, hl, hnone, henc⟩ := h.inert i hlt hdiff
  refine not_encloses_of_leaf hp ha hl ?_ hleaf hi henc
  rintro rfl
  rcases howns with hmargin | hkind
  · exact henc.margin hmargin
  · exact hkind hnone

/-- A name reads the same in both texts. -/
theorem textIn_eq (h : DifferInertly outline text text') (hp : Placed text outline) {a : Located}
    (ha : a ∈ outline.nodes) (hkind : a.tree.kind = .identifier) :
    a.tree.textIn text' = a.tree.textIn text := by
  have hleaf : a.tree.children = [] := by
    have hplaced := (inside_of_mem_nodes hp ha).placed
    obtain ⟨⟨k, s, e, cs⟩, above⟩ := a
    obtain rfl : k = .identifier := hkind
    simp only [Placed] at hplaced
    exact hplaced.1 rfl
  have hmargin : a.kind.margin? = none := by
    rw [Located.kind, hkind]
    rfl
  unfold Tree.textIn
  rw [extract_congr h.size_eq fun i hi => h.getElem?_eq hp ha hleaf (.inl hmargin) hi]

/-- Whether a call names a module, and in which form, is the same in both texts. -/
theorem callKind?_eq (h : DifferInertly outline text text') (hp : Placed text outline)
    {l : Located} (hl : l ∈ outline.nodes) : l.callKind? text' = l.callKind? text := by
  unfold Located.callKind?
  split
  · next arguments call above habove =>
    cases hfunction : call.function? with
    | none => simp only
    | some function =>
      -- the function that is called is a node of the outline
      have harguments := mem_nodes_of_above hl habove
      have hcall : ⟨call, above⟩ ∈ outline.nodes := mem_nodes_of_above harguments rfl
      have hmem : ⟨function, call :: above⟩ ∈ outline.nodes :=
        mem_nodes_of_mem_children hcall
          (List.mem_map.2 ⟨function, List.mem_of_head? hfunction, rfl⟩)
      by_cases hkind : function.kind = .identifier
      · have htext : function.textIn text' = function.textIn text :=
          h.textIn_eq hp hmem hkind
        simp only [htext]
      · simp only [hkind, false_and]
  · rfl

theorem importKind?_eq (h : DifferInertly outline text text') (hp : Placed text outline)
    {l : Located} (hl : l ∈ outline.nodes) : l.importKind? text' = l.importKind? text := by
  unfold Located.importKind?
  rw [h.callKind?_eq hp hl]

theorem lineStarts_eq (h : DifferInertly outline text text') :
    Text.lineStarts text'.toList = Text.lineStarts text.toList := by
  have hlength : text'.toList.length = text.toList.length := by
    rw [Array.length_toList, Array.length_toList, h.size_eq]
  unfold Text.lineStarts
  rw [Text.lineStartsFrom_congr hlength (by simpa using h.breaks)]

/-- A node makes the same reference in both texts. -/
theorem ofLocated?_eq (h : DifferInertly outline text text') (hp : Placed text outline)
    {l : Located} (hl : l ∈ outline.nodes) :
    Reference.ofLocated? text' l = Reference.ofLocated? text l := by
  unfold Reference.ofLocated?
  rw [h.importKind?_eq hp hl, h.lineStarts_eq]
  cases hkind : l.importKind? text with
  | none => rfl
  | some kind =>
    have hmade : Reference.ofLocated? text l =
        some (Reference.ofNode text (Text.lineStarts text.toList).toArray kind l.tree) := by
      rw [Reference.ofLocated?, hkind, Option.map_some]
    obtain ⟨hleaf, -⟩ := Reference.quoted_of_ofLocated? hp hl hmade
    have hsame : text'.extract (l.tree.start + 1) (l.tree.stop - 1) =
        text.extract (l.tree.start + 1) (l.tree.stop - 1) :=
      extract_congr h.size_eq fun i hi =>
        h.getElem?_eq hp hl hleaf (.inr (by simp [hkind])) (by omega)
    simp only [Option.map_some, Reference.ofNode, hsame]

theorem ofOutline_eq (h : DifferInertly outline text text') (hp : Placed text outline)
    (kinds : List ImportKind) :
    Reference.ofOutline text' kinds outline = Reference.ofOutline text kinds outline := by
  rw [Reference.ofOutline_eq_filter, Reference.ofOutline_eq_filter,
    List.filterMap_congr fun l hl => h.ofLocated?_eq hp hl]

end DifferInertly

end Outline

/-! ## Source files -/

/-- A script whose comment, regular expression, string and template read like imports. -/
def lookalike : SourceFile :=
  ⟨"a.ts", "//import'a'\nf(/'/, `'$\x7brequire('b')\x7d`, \"'a'\")\nimport 'c'"⟩

/-- The script with other text in their place. -/
def plainTwin : SourceFile :=
  ⟨"a.ts", "//no module\nf(/x/, `y$\x7brequire('b')\x7d`, \"zzz\")\nimport 'c'"⟩

end ImportAudit
