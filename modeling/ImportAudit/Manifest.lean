/-
# ImportAudit.Manifest — which packages a project declares.

A manifest has up to four sections of declared packages.  What a manifest says in any other way, and
a section that is no object, does not count.  A manifest that cannot be read is as good as an empty
one: it allows nothing, and one problem tells of it.
-/
import ImportAudit.Json.Reader
import ImportAudit.Problem.Record

namespace ImportAudit

/-- A section of a manifest. -/
inductive Section
  | dependencies
  | dev
  | peer
  | optional
  deriving DecidableEq, Repr

namespace Section

/-- The sections in the order in which they are read. -/
def all : List Section := [.dependencies, .dev, .peer, .optional]

/-- The name of a section in a manifest. -/
def name : Section → String
  | .dependencies => "dependencies"
  | .dev => "devDependencies"
  | .peer => "peerDependencies"
  | .optional => "optionalDependencies"

/-- The sections whose packages may be imported: those that are needed for development and those
that are needed by peers exclude each other. -/
def selected (o : RuleOptions) : List Section :=
  [.dependencies, if o.dev then .dev else .peer] ++ if o.optional then [.optional] else []

end Section

/-- The sections that a manifest has, and the names in each. -/
structure Manifest where
  sections : List (Section × List String) := []
  deriving DecidableEq, Repr

namespace Manifest

/-- The name of the file that holds the manifest of a project. -/
def fileName : String := "package.json"

/-- The mark that a text may begin with to tell its encoding. -/
def byteOrderMark : Char := Char.ofNat 0xFEFF

/-- The names in a section, none if it is absent. -/
def packagesIn (m : Manifest) (s : Section) : List String := (m.sections.lookup s).getD []

/-- The names in the section of a name. -/
def packagesNamed (m : Manifest) (name : String) : List String :=
  match Section.all.find? fun s => s.name = name with
  | some s => m.packagesIn s
  | none => []

/-- The packages that may be imported, in order, each once. -/
def allowed (m : Manifest) (o : RuleOptions) : List String :=
  Text.sortedSet ((Section.selected o).flatMap m.packagesIn)

/-! ## Reading -/

/-- A section of the object with the given members, if it is an object. -/
def sectionOf (members : List (Value × Value)) (s : Section) : Option (Section × List String) :=
  match Value.lookup s.name members with
  | some (.mapping entries) => some (s, Value.textKeys entries)
  | _ => none

/-- The manifest that the members of an object make up. -/
def ofMembers (members : List (Value × Value)) : Manifest where
  sections := Section.all.filterMap (sectionOf members)

/-- A text without the mark that it begins with. -/
def withoutMark (text : List Char) : List Char :=
  match text with
  | c :: cs => if c = byteOrderMark then cs else text
  | [] => []

/-- The manifest of a text, and the problem with it if there is one.  A number or a nesting that is
beyond all bounds is no matter of the manifest. -/
def ofText (path : Option String) (text : List Char) : Except Fault (Manifest × Option Problem) :=
  let text := withoutMark text
  match Json.read text with
  | .ok (.mapping members) => .ok (ofMembers members, none)
  | .ok _ =>
    .ok ({}, some (.ofManifest "package.json must contain a JSON object, treating it as empty"
      "parse_manifest_text" path none))
  | .error (.malformed c rest) =>
    .ok ({}, some (.ofManifest "Invalid JSON in package.json, treating it as empty"
      "parse_manifest_text" path (some (.json (.malformed c rest) text))))
  | .error fault => .error (.json fault text)

/-- The manifest of a file that could not be read, and the problem with it. -/
def unread (path : String) (fault : Fault) : Manifest × Option Problem :=
  ({}, some (.ofManifest "Could not read package.json, treating it as empty" "load_manifest"
    (some path) (some fault)))

/-- The manifest that bytes hold, and the problem with it if there is one. -/
def ofBytes (path : String) (bytes : List UInt8) : Except Fault (Manifest × Option Problem) :=
  match Text.Utf8.decode bytes with
  | .error fault => .ok (unread path (.encoding fault))
  | .ok text => ofText (some path) (Text.Utf8.unifyLines text)

end Manifest

end ImportAudit
