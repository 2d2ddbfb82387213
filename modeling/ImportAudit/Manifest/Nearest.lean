/-
# ImportAudit.Manifest.Nearest — the manifest that a file goes by.

A file goes by the manifest in its directory or, failing that, in the closest directory above.  That
is looked for by names alone, so a directory on the way need not exist.
-/
import ImportAudit.Files.Tree
import ImportAudit.Manifest

namespace ImportAudit

/-- A path and those above it, from the path itself to its root. -/
def Path.ancestors (p : Path) : List Path :=
  (List.range (p.parts.length + 1)).reverse.map fun n => { p with parts := p.parts.take n }

namespace Manifest

open Files

/-- The manifest nearest to a directory. -/
def nearest (t : Tree) (workingDir : Place) (start : String) :
    Except Files.Fault (Option Path) :=
  t.firstPresent workingDir ((Tree.absolute workingDir start).ancestors.map (·.child fileName))

/-- The manifest of a path, and the problem with it if there is one. -/
def load (t : Tree) (workingDir : Place) (path : Path) :
    Except Fault (Manifest × Option Problem) :=
  match t.read workingDir path.toString with
  | .error f => .ok (unread path.toString (.files f))
  | .ok bytes => ofBytes path.toString bytes

/-- What was consulted for a file: the manifest, if there is one, the problem with it, and the
packages that it allows. -/
structure Consultation where
  path : Option Path
  problem : Option Problem
  allowed : List String
  deriving Repr

/-- Consults the manifest that a file goes by. -/
def consult (t : Tree) (workingDir : Place) (file : String) (o : RuleOptions) :
    Except Fault Consultation :=
  match nearest t workingDir (Tree.absolute workingDir file).parent.toString with
  | .error f => .error (.files f)
  | .ok none => .ok ⟨none, none, []⟩
  | .ok (some path) =>
    match load t workingDir path with
    | .error f => .error f
    | .ok (m, problem) => .ok ⟨some path, problem, m.allowed o⟩

end Manifest

end ImportAudit
