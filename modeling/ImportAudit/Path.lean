/-
# ImportAudit.Path — paths as a root and components.

A path is what is left of its text when empty components and single dots are dropped; `..` is kept,
because a link may lead elsewhere.  Two leading slashes are a root of their own, any other number of
them is one.  Paths are compared component by component.
-/

namespace ImportAudit

/-- A path: its root, which is empty, one slash or two, and its components. -/
structure Path where
  root : String
  parts : List String
  deriving DecidableEq, Repr

namespace Path

/-- Splits at every occurrence of `sep`; the pieces are at least one. -/
def splitAt (sep : Char) : List Char → List (List Char)
  | [] => [[]]
  | c :: cs =>
    match splitAt sep cs with
    | [] => [[c]]
    | piece :: pieces => if c = sep then [] :: piece :: pieces else (c :: piece) :: pieces

/-- The root that a text begins with. -/
def rootOf : List Char → String
  | '/' :: '/' :: '/' :: _ => "/"
  | '/' :: '/' :: _ => "//"
  | '/' :: _ => "/"
  | _ => ""

/-- The path that a text stands for. -/
def ofString (text : String) : Path where
  root := rootOf text.toList
  parts := (splitAt '/' text.toList).filterMap fun piece =>
    if piece = [] ∨ piece = ['.'] then none else some (String.ofList piece)

/-- The text of a path. -/
def toString (p : Path) : String :=
  if p.root = "" ∧ p.parts = [] then "." else p.root ++ "/".intercalate p.parts

instance : ToString Path := ⟨toString⟩

/-- The last component, or the empty text if there is none. -/
def name (p : Path) : String := p.parts.getLast?.getD ""

/-- The ending of a name from its last dot on; a dot at either end of the name begins none. -/
def suffixOf (name : String) : String :=
  let cs := name.toList
  let ending := (cs.reverse.takeWhile (· ≠ '.')).reverse
  if ending.length + 1 < cs.length ∧ ending ≠ [] then "." ++ String.ofList ending else ""

/-- The ending of the last component. -/
def suffix (p : Path) : String := suffixOf p.name

/-- A component below a path. -/
def child (p : Path) (part : String) : Path := { p with parts := p.parts ++ [part] }

/-- The path without its last component; a root stays. -/
def parent (p : Path) : Path := { p with parts := p.parts.dropLast }

/-- The components that paths are compared by: the root, if there is one, and the parts. -/
def keys (p : Path) : List String := if p.root = "" then p.parts else p.root :: p.parts

/-- A list of texts comes before another one: the first difference decides, and a beginning comes
before what it begins. -/
def keysBefore : List String → List String → Bool
  | _, [] => false
  | [], _ :: _ => true
  | a :: as, b :: bs => if a = b then keysBefore as bs else a < b

/-- The order of paths. -/
def before (p q : Path) : Bool := keysBefore p.keys q.keys

end Path

end ImportAudit
