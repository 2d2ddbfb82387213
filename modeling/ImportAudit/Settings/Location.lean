/-
# ImportAudit.Settings.Location — where settings are looked for, and in which form.
-/
import ImportAudit.Files.Tree
import ImportAudit.Settings.Environment

namespace ImportAudit.Settings

open Files

/-- The forms that a file may have. -/
inductive Form
  | json
  | yaml
  | toml
  deriving DecidableEq, Repr

/-- The form that a path tells by its ending. -/
def formOf? (path : Path) : Option Form :=
  match Text.lower path.suffix with
  | ".json" => some .json
  | ".yaml" | ".yml" => some .yaml
  | ".toml" => some .toml
  | _ => none

/-- The names of the files in a directory that settings are looked for in. -/
def fileNames : List String :=
  [".no-implicit-deps.json", ".no-implicit-deps.yaml", ".no-implicit-deps.yml",
    ".no-implicit-deps.toml"]

/-- The home directory of the user. -/
def homeDir (env : Environment) : Path :=
  match env.lookup "HOME" with
  | none => Path.ofString "/root"
  | some "" => Path.ofString "/"
  | some home => Path.ofString home

/-- The paths that settings are looked for in, if the search starts in a directory. -/
def locations (env : Environment) (base : Path) : List Path :=
  let user := ((homeDir env).child ".config").child "no-implicit-deps"
  fileNames.map base.child ++ ["config.json", "config.yaml", "config.toml"].map user.child

/-- The file that settings are found in, if the search starts in a directory, or else in the
working directory. -/
def locate (t : Tree) (workingDir : Place) (env : Environment) (start : Option Path) :
    Except Files.Fault (Option Path) :=
  t.firstPresent workingDir (locations env (start.getD ⟨"/", workingDir⟩))

end ImportAudit.Settings
