/-
# ImportAudit.Files.Source — the text of a source file.

Bytes that are no text do not keep a source file from being read, every line end is a line feed,
and one mark at the beginning is no part of the text.
-/
import ImportAudit.Fault
import ImportAudit.Files.Tree
import ImportAudit.Manifest
import ImportAudit.Reference.Scan

namespace ImportAudit.SourceFile

open Files

/-- The text that the bytes of a source file stand for. -/
def textOf (bytes : List UInt8) : List Char :=
  Manifest.withoutMark (Text.Utf8.unifyLines (Text.Utf8.repair bytes))

/-- The source file of a path. -/
def load (t : Tree) (workingDir : Place) (path : Path) : Except Fault SourceFile :=
  match t.read workingDir path.toString with
  | .error f => .error (.unreadable path.toString f)
  | .ok bytes => .ok { fileName := path.toString, text := String.ofList (textOf bytes) }

end ImportAudit.SourceFile
