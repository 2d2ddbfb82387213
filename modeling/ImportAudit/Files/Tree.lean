/-
# ImportAudit.Files.Tree — the files that a run can see.

A tree has files, directories and links, each known by the names that lead to it from the root.
What holds an entry is a directory, so the names that lead to an entry are those of directories but
for the last.  A path is followed name by name: two dots lead back, and a link leads to what it
says, seen from where it lies.  A path may lead through so many links and no more.
-/
import ImportAudit.Files.Fault
import ImportAudit.Path
import ImportAudit.Text.Utf8

namespace ImportAudit.Files

/-- What a tree holds in a place. -/
inductive Entry
  | file (bytes : List UInt8)
  | directory
  | link (target : String)
  deriving DecidableEq, Repr

/-- The names that lead to a place from the root. -/
abbrev Place := List String

/-- The entries of a tree, each in its place; the root is not listed. -/
structure Tree where
  entries : List (Place × Entry) := []
  deriving Repr

namespace Tree

/-! ## Places -/

/-- What is in a place. -/
def entry? (t : Tree) (place : Place) : Option Entry :=
  if place = [] then some .directory else t.entries.lookup place

/-- The entries with another one in a place. -/
def putEntry (place : Place) (e : Entry) : List (Place × Entry) → List (Place × Entry)
  | [] => [(place, e)]
  | (p, d) :: es => if p = place then (p, e) :: es else (p, d) :: putEntry place e es

/-- The tree with an entry in a place. -/
def put (t : Tree) (place : Place) (e : Entry) : Tree := ⟨putEntry place e t.entries⟩

/-- The tree without what is in a place. -/
def erase (t : Tree) (place : Place) : Tree := ⟨t.entries.filter fun e => e.1 ≠ place⟩

/-- The tree with directories on the way from a place along names, where there is nothing yet; the
last name is left alone. -/
def makeWay (t : Tree) (place : Place) : List String → Tree
  | [] | [_] => t
  | name :: rest =>
    let next := place ++ [name]
    makeWay (if (t.entry? next).isNone then t.put next .directory else t) next rest

/-- The name by which a place is known in a directory, if it lies right there. -/
def nameIn? : Place → Place → Option String
  | [], [name] => some name
  | d :: ds, p :: ps => if d = p then nameIn? ds ps else none
  | _, _ => none

/-- What lies in a directory, by name. -/
def children (t : Tree) (directory : Place) : List (String × Entry) :=
  t.entries.filterMap fun e => (nameIn? directory e.1).map fun name => (name, e.2)

/-- The number of names that lead to the deepest entry. -/
def depth (t : Tree) : Nat := t.entries.foldr (fun e deepest => max e.1.length deepest) 0

/-! ## Following a path -/

/-- How many links a path may lead through. -/
def maxLinks : Nat := 40

/-- How many bytes a name may have. -/
def maxName : Nat := 255

/-- How many bytes a path may have. -/
def maxPath : Nat := 4095

/-- The names of a path as they are followed, and whether it begins at the root; a slash at the end
asks for a directory, as a dot does. -/
def steps (path : String) : Bool × List String :=
  let pieces := (Path.splitAt '/' path.toList).map String.ofList
  let inner := pieces.dropLast.filter (· ≠ "")
  (path.toList.head? = some '/',
    match pieces.getLast? with
    | some "" | none => if inner = [] then [] else inner ++ ["."]
    | some last => inner ++ [last])

/-- Follows names from a place.  A name that nothing goes by leads nowhere, unless it is the last
one and something may be made there; a link that comes last is followed if `through`.  From a link
on, `again` follows the names it stands for and those behind it. -/
def walk (t : Tree) (through create : Bool) (again : Place → List String → Except Refusal Place)
    (place : Place) : List String → Except Refusal Place
  | [] => .ok place
  | name :: rest =>
    if name = "." then walk t through create again place rest
    else if name = ".." then walk t through create again place.dropLast rest
    else if maxName < name.utf8ByteSize then .error .nameTooLong
    else
      let next := place ++ [name]
      match t.entry? next with
      | none =>
        if create ∧ rest = [] then .ok next
        else .error (if create ∧ rest = ["."] then .isDirectory else .noEntry)
      | some .directory => walk t through create again next rest
      | some (.file _) => if rest = [] then .ok next else .error .notDirectory
      | some (.link target) =>
        if rest = [] ∧ !through then .ok next
        else
          let (absolute, names) := steps target
          again (if absolute then [] else place) (names ++ rest)

/-- Follows names from a place through so many links. -/
def follow (t : Tree) (through create : Bool) :
    Nat → Place → List String → Except Refusal Place
  | 0 => t.walk through create fun _ _ => .error .tooManyLinks
  | links + 1 => t.walk through create (follow t through create links)

/-- The place that a path leads to from a working directory. -/
def locate (t : Tree) (through create : Bool) (workingDir : Place) (path : String) :
    Except Refusal Place :=
  if path = "" then .error .noEntry
  else if maxPath < path.utf8ByteSize then .error .nameTooLong
  else
    let (absolute, names) := steps path
    follow t through create maxLinks (if absolute then [] else workingDir) names

/-! ## Asking and changing -/

/-- What a path leads to. -/
def find (t : Tree) (workingDir : Place) (path : String) : Except Refusal Entry :=
  match t.locate true false workingDir path with
  | .error r => .error r
  | .ok place =>
    match t.entry? place with
    | some e => .ok e
    | none => .error .noEntry

/-- A refusal that says that there is nothing. -/
def isAbsence : Refusal → Bool
  | .noEntry | .notDirectory | .badDescriptor | .tooManyLinks => true
  | _ => false

/-- What a path leads to, or nothing. -/
def look (t : Tree) (workingDir : Place) (path : String) : Except Fault (Option Entry) :=
  match t.find workingDir path with
  | .ok e => .ok (some e)
  | .error r => if isAbsence r then .ok none else .error ⟨r, path⟩

/-- A path leads to something. -/
def hasEntry (t : Tree) (workingDir : Place) (path : String) : Except Fault Bool :=
  match t.look workingDir path with
  | .ok e => .ok e.isSome
  | .error f => .error f

/-- The first path that leads to something. -/
def firstPresent (t : Tree) (workingDir : Place) : List Path → Except Fault (Option Path)
  | [] => .ok none
  | p :: ps =>
    match t.hasEntry workingDir p.toString with
    | .error f => .error f
    | .ok true => .ok (some p)
    | .ok false => firstPresent t workingDir ps

/-- The bytes of the file that a path leads to. -/
def read (t : Tree) (workingDir : Place) (path : String) : Except Fault (List UInt8) :=
  match t.find workingDir path with
  | .ok (.file bytes) => .ok bytes
  | .ok .directory => .error ⟨.isDirectory, path⟩
  | .ok (.link _) => .error ⟨.tooManyLinks, path⟩
  | .error r => .error ⟨r, path⟩

/-- The tree in which the file that a path leads to holds bytes; it is made if need be. -/
def write (t : Tree) (workingDir : Place) (path : String) (bytes : List UInt8) :
    Except Fault Tree :=
  match t.locate true true workingDir path with
  | .error r => .error ⟨r, path⟩
  | .ok place =>
    match t.entry? place with
    | some .directory => .error ⟨.isDirectory, path⟩
    | _ => .ok (t.put place (.file bytes))

/-- The tree without the file or the link that a path leads to. -/
def remove (t : Tree) (workingDir : Place) (path : String) : Except Fault Tree :=
  match t.locate false false workingDir path with
  | .error r => .error ⟨r, path⟩
  | .ok place =>
    match t.entry? place with
    | some .directory => .error ⟨.isDirectory, path⟩
    | _ => .ok (t.erase place)

/-- The place of the directory that a path leads to. -/
def enter (t : Tree) (workingDir : Place) (path : String) : Except Fault Place :=
  match t.locate true false workingDir path with
  | .error r => .error ⟨r, path⟩
  | .ok place =>
    match t.entry? place with
    | some .directory => .ok place
    | _ => .error ⟨.notDirectory, path⟩

/-! ## Absolute paths -/

/-- The parts of a path in which two dots have taken back the part before them. -/
def flatten : List String → List String → List String
  | done, [] => done
  | done, ".." :: rest => flatten done.dropLast rest
  | done, part :: rest => flatten (done ++ [part]) rest

/-- The absolute path that a text stands for, without looking at the tree. -/
def absolute (workingDir : Place) (path : String) : Path :=
  let p := Path.ofString path
  if p.root = "" then ⟨"/", flatten workingDir p.parts⟩ else ⟨p.root, flatten [] p.parts⟩

end Tree

end ImportAudit.Files
