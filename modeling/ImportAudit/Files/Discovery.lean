/-
# ImportAudit.Files.Discovery — the source files that paths stand for.

A path to a file stands for the file.  A path to a directory stands for the files below it that have
one of the endings; directories are walked one in the other, but for those that are excluded by name.
The directory that the path leads to is walked whatever its name is.  Files that only declare types
do not count, and no link to a directory is entered.
-/
import ImportAudit.Data.Misuse
import ImportAudit.Fault
import ImportAudit.Files.Tree
import ImportAudit.Settings.Basic
import ImportAudit.Text.Casing

namespace ImportAudit.Files.Discovery

/-! ## One directory -/

/-- The ending of the names of files that only declare types. -/
def declarations : String := ".d.ts"

/-- A name is one of a source file with one of the endings. -/
def isSource (endings : List String) (name : String) : Bool :=
  !declarations.toList.isSuffixOf name.toList &&
    endings.contains (Text.lower (Path.suffixOf name))

/-- What a place holds is a file, or a link that does not lead to a directory. -/
def isFile (t : Tree) (place : Place) : Entry → Bool
  | .file _ => true
  | .directory => false
  | .link _ =>
    match t.follow true false Tree.maxLinks place.dropLast (place.drop (place.length - 1)) with
    | .ok end_ => decide (t.entry? end_ ≠ some .directory)
    | .error _ => true

/-- The path of what lies in a directory, from the path of the directory. -/
def joined (directory name : String) : String :=
  if directory.toList.getLast? = some '/' then directory ++ name else directory ++ "/" ++ name

/-- The ways from a directory to the source files below it: first those that lie in it, then those
that lie below the directories in it, unless these are excluded.  The system lists no directory
whose path is too long for it.  At most `depth` directories are entered one in the other. -/
def walk (t : Tree) (endings excluded : List String) : Nat → String → Place → List Place
  | 0, _, _ => []
  | depth + 1, path, place =>
    if Tree.maxPath < path.utf8ByteSize then []
    else
      let inside := t.children place
      let files := inside.filter fun e => isFile t (place ++ [e.1]) e.2 && isSource endings e.1
      let directories := inside.filter fun e => e.2 = .directory && !excluded.contains e.1
      files.map (fun e => [e.1]) ++ directories.flatMap fun e =>
        (walk t endings excluded depth (joined path e.1) (place ++ [e.1])).map (e.1 :: ·)

/-- The ways from a directory to the source files below it. -/
def sources (t : Tree) (endings excluded : List String) (path : String) (directory : Place) :
    List Place :=
  walk t endings excluded (t.depth + 1) path directory

/-! ## All paths -/

/-- The files that a path stands for. -/
def ofPath (t : Tree) (workingDir : Place) (endings excluded : List String) (path : Path) :
    Except Fault (List Path) :=
  match t.look workingDir path.toString with
  | .error f => .error f
  | .ok (some (.file _)) => .ok [path]
  | .ok (some .directory) =>
    match t.locate true false workingDir path.toString with
    | .error _ => .ok []
    | .ok directory =>
      .ok ((sources t endings excluded path.toString directory).map fun way =>
        { path with parts := path.parts ++ way })
  | .ok _ => .ok []

/-- The files that paths stand for, path by path. -/
def ofPaths (t : Tree) (workingDir : Place) (endings excluded : List String) :
    List String → Except Fault (List Path)
  | [] => .ok []
  | p :: ps =>
    match ofPath t workingDir endings excluded (Path.ofString p) with
    | .error f => .error f
    | .ok files =>
      match ofPaths t workingDir endings excluded ps with
      | .error f => .error f
      | .ok rest => .ok (files ++ rest)

/-- The order in which files are checked. -/
def inOrder (a b : Path) : Bool := !Path.before b a

/-- The source files that paths stand for, in order, each once. -/
def find (t : Tree) (workingDir : Place) (endings excluded paths : List String) :
    Except Fault (List Path) :=
  match ofPaths t workingDir endings excluded paths with
  | .error f => .error f
  | .ok files => .ok (files.eraseDups.mergeSort inOrder)

/-! ## Endings and directories as they are set -/

/-- The text of an item, in lower case. -/
def ending : Value → Except Misuse String
  | .text s => .ok (Text.lower s)
  | v => .error (.noMember v.fullTypeName "lower")

/-- The endings that a setting gives, or those by default if it gives none. -/
def endings (v : Value) : Except Misuse (List String) :=
  match if v.truthy then v.items else .ok (defaultExtensions.map .text) with
  | .error f => .error f
  | .ok items => items.mapM ending

/-- A value cannot be a member of a set. -/
def isUnhashable : Value → Bool
  | .list _ | .mapping _ => true
  | _ => false

/-- The directories that a setting excludes, or those by default if it excludes none. -/
def excluded (v : Value) : Except Misuse (List String) :=
  match if v.truthy then v.items else .ok (defaultExcluded.map .text) with
  | .error f => .error f
  | .ok items =>
    match items.find? isUnhashable with
    | some item => .error (.unhashable item.fullTypeName)
    | none => .ok (items.filterMap fun item => match item with
        | .text s => some s
        | _ => none)

end ImportAudit.Files.Discovery
