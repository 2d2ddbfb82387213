/-
# ImportAudit.Settings.File — the value that a settings file holds.
-/
import ImportAudit.Settings.Location
import ImportAudit.Toml.Reader
import ImportAudit.Yaml.Reader

namespace ImportAudit.Settings

open Files

/-- The value of a text in a form. -/
def valueOf (form : Form) (text : List Char) : Except Fault Value :=
  match form with
  | .json => (Json.read text).mapError fun f => .json f text
  | .yaml => (Yaml.read text).mapError .yaml
  | .toml => (Toml.read text).mapError .toml

/-- The text that bytes hold, where the form is read piece by piece: a character that the last piece
breaks off is a fault of that piece alone. -/
def textOf (form : Form) (bytes : List UInt8) : Except Fault (List Char) :=
  match Text.Utf8.decode bytes with
  | .ok text => .ok (Text.Utf8.unifyLines text)
  | .error f =>
    .error (.encoding (if form = .yaml ∧ f.reason = .ended then { f with position := 0 } else f))

/-- The value that the file of a path holds, null if its form is not known. -/
def readFile (t : Tree) (workingDir : Place) (path : Path) : Except Fault Value :=
  match t.read workingDir path.toString with
  | .error f => .error (.files f)
  | .ok bytes =>
    match formOf? path with
    | none => .ok .null
    | some form =>
      match textOf form bytes with
      | .error f => .error f
      | .ok text => valueOf form text

end ImportAudit.Settings
