/-
# ImportAudit.Reference.Scan — the references of a source file to other modules.

A source file is outlined, and of each literal that names a module the reference records the text
between the quotes, the form, and where the literal stands.  References come in text order.
-/
import ImportAudit.Grammar.Program
import ImportAudit.Path
import ImportAudit.Reference.Kind
import ImportAudit.Text.Position

namespace ImportAudit

open Outline

/-- A source file: its name and its whole text. -/
structure SourceFile where
  fileName : String
  text : String
  deriving DecidableEq, Repr

/-- A reference to a module: the text between the quotes, the line and column of the opening quote,
the offsets of the opening quote and past the closing one, and the form. -/
structure Reference where
  text : String
  line : Nat
  column : Nat
  start : Nat
  stop : Nat
  kind : ImportKind
  deriving DecidableEq, Repr

/-- The endings of files that may contain markup. -/
def markupSuffixes : List String := [".tsx", ".jsx", ".js", ".mjs", ".cjs"]

/-- A file of this name may contain markup. -/
def usesMarkup (fileName : String) : Bool :=
  markupSuffixes.contains ((Path.ofString fileName).suffix.map Char.toLower)

namespace SourceFile

/-- The script in a source file. -/
def script (file : SourceFile) : Grammar.Script where
  text := file.text.toList.toArray
  markup := usesMarkup file.fileName

end SourceFile

namespace Reference

/-- The reference made by the literal at a node of an outline over `text`. -/
def ofNode (text : Array Char) (starts : Array Nat) (kind : ImportKind) (t : Tree) : Reference :=
  let position := Text.lineAndColumn starts t.start
  { text := String.ofList (text.extract (t.start + 1) (t.stop - 1)).toList
    line := position.1
    column := position.2
    start := t.start
    stop := t.stop
    kind := kind }

/-- The references of one of the forms `kinds` in an outline over `text`, in text order. -/
def ofOutline (text : Array Char) (kinds : List ImportKind) (outline : Tree) : List Reference :=
  let starts := (Text.lineStarts text.toList).toArray
  outline.nodes.filterMap fun l =>
    match l.importKind? text with
    | none => none
    | some kind => if kind ∈ kinds then some (ofNode text starts kind l.tree) else none

end Reference

/-- The references of one of the forms `kinds` in a source file, in text order. -/
def SourceFile.references (file : SourceFile) (kinds : List ImportKind) : List Reference :=
  Reference.ofOutline file.script.text kinds file.script.outline

end ImportAudit
