/-
# ImportAudit.Proofs.Reference.Nodes — references and the literals that make them.

Every reference is made by one literal of the outline, and every literal in a form that is asked for
makes one.  The text of a reference is what stands between the quotes of its literal, and asking for
fewer forms drops the references of the others and changes nothing else.
-/
import ImportAudit.Check.Analysis

namespace ImportAudit

open Outline

/-- The text of a source file from one offset up to another one. -/
def SourceFile.between (file : SourceFile) (start stop : Nat) : String :=
  String.ofList ((file.text.toList.take stop).drop start)

namespace Reference

/-- The reference that a node of an outline makes, if it is a literal that makes one. -/
def ofLocated? (text : Array Char) (l : Located) : Option Reference :=
  (l.importKind? text).map fun kind =>
    ofNode text (Text.lineStarts text.toList).toArray kind l.tree

theorem ofLocated?_of_importKind? {text : Array Char} {l : Located} {kind : ImportKind}
    (h : l.importKind? text = some kind) : ofLocated? text l =
      some (ofNode text (Text.lineStarts text.toList).toArray kind l.tree) := by
  rw [ofLocated?, h, Option.map_some]

/-- The text of a reference is what stands between the ends of its literal. -/
theorem text_ofNode (text : Array Char) (starts : Array Nat) (kind : ImportKind) (t : Tree) :
    (ofNode text starts kind t).text =
      String.ofList ((text.toList.take (t.stop - 1)).drop (t.start + 1)) := by
  show String.ofList (text.extract (t.start + 1) (t.stop - 1)).toList = _
  rw [Array.toList_extract, List.extract_eq_take_drop, List.drop_take]

theorem ofOutline_eq_filter (text : Array Char) (kinds : List ImportKind) (outline : Tree) :
    ofOutline text kinds outline =
      (outline.nodes.filterMap (ofLocated? text)).filter fun r => r.kind ∈ kinds := by
  unfold ofOutline
  rw [List.filter_filterMap]
  refine congrArg (List.filterMap · outline.nodes) (funext fun l => ?_)
  unfold ofLocated?
  cases l.importKind? text with
  | none => rfl
  | some kind => by_cases h : kind ∈ kinds <;> simp [h, ofNode, Option.filter]

theorem ofOutline_all (text : Array Char) (outline : Tree) :
    ofOutline text ImportKind.all outline = outline.nodes.filterMap (ofLocated? text) := by
  rw [ofOutline_eq_filter, List.filter_eq_self]
  intro r _
  simpa using ImportKind.mem_all r.kind

/-- A reference is made by a node of the outline. -/
theorem exists_located_of_mem {text : Array Char} {kinds : List ImportKind} {outline : Tree}
    {r : Reference} (h : r ∈ ofOutline text kinds outline) :
    ∃ l ∈ outline.nodes, ofLocated? text l = some r := by
  rw [ofOutline_eq_filter, List.mem_filter, List.mem_filterMap] at h
  exact h.1

end Reference

/-- The references of some forms are those of all forms less the ones of the other forms. -/
theorem SourceFile.references_eq_filter (file : SourceFile) (kinds : List ImportKind) :
    file.references kinds = file.allReferences.filter fun r => r.kind ∈ kinds := by
  unfold SourceFile.allReferences SourceFile.references
  rw [Reference.ofOutline_eq_filter, Reference.ofOutline_all]

/-- The text of a reference is what stands between its quotes. -/
theorem SourceFile.text_eq_between {file : SourceFile} {kinds : List ImportKind} {r : Reference}
    (h : r ∈ file.references kinds) : r.text = file.between (r.start + 1) (r.stop - 1) := by
  obtain ⟨l, -, hl⟩ := Reference.exists_located_of_mem h
  obtain ⟨kind, -, rfl⟩ := Option.map_eq_some_iff.1 hl
  rw [Reference.text_ofNode]
  rfl

end ImportAudit
