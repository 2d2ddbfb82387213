/-
# ImportAudit.Reference.Kind — which literals name a module, and in which form.

A literal names a module by where it stands: as the source of an import or export, inside
`x = require(...)`, or as the first argument of `require(...)` or `import(...)`.  A comment before
the argument does not matter; a template counts only as an argument, and only if it substitutes
nothing.  Whether an `import(...)` stands for a value or for a type is decided by the nodes above it
up to the nearest scope boundary.
-/
import ImportAudit.Outline.Walk

namespace ImportAudit

open Outline

/-- The forms in which a module can be named. -/
inductive ImportKind
  | import
  | exportFrom
  | importEquals
  | require
  | dynamicImport
  | importType
  deriving DecidableEq, Repr

namespace ImportKind

/-- All forms. -/
def all : List ImportKind :=
  [.import, .exportFrom, .importEquals, .require, .dynamicImport, .importType]

theorem mem_all (k : ImportKind) : k ∈ all := by cases k <;> decide

/-- The name of a form. -/
def name : ImportKind → String
  | .import => "IMPORT"
  | .exportFrom => "EXPORT_FROM"
  | .importEquals => "IMPORT_EQUALS"
  | .require => "REQUIRE"
  | .dynamicImport => "DYNAMIC_IMPORT"
  | .importType => "IMPORT_TYPE"

end ImportKind

namespace Outline

/-- A type position is met among the nodes `above` before the first scope boundary. -/
def inTypePosition : List Tree → Bool
  | [] => false
  | t :: above =>
    if t.kind.isScopeBoundary then false
    else t.kind.isTypeContext || inTypePosition above

/-- The first argument: the first child that is no comment. -/
def Tree.firstArgument? (arguments : Tree) : Option Tree :=
  arguments.children.find? fun t => t.kind ≠ .comment

/-- The function of a call: its first child. -/
def Tree.function? (call : Tree) : Option Tree := call.children.head?

/-- The text that a node covers. -/
def Tree.textIn (text : Array Char) (t : Tree) : List Char :=
  (text.extract t.start t.stop).toList

/-- The form of a call whose first argument is the literal. -/
def Located.callKind? (text : Array Char) (literal : Located) : Option ImportKind :=
  match literal.above with
  | arguments :: call :: above =>
    if arguments.kind = .arguments ∧ call.kind = .callExpression ∧
        (arguments.firstArgument?.map Tree.start) = some literal.tree.start then
      match call.function? with
      | none => none
      | some function =>
        if function.kind = .importWord then
          some (if inTypePosition above then .importType else .dynamicImport)
        else if function.kind = .identifier ∧ function.textIn text = "require".toList then
          some .require
        else none
    else none
  | _ => none

/-- The form in which a node names a module, if it is a literal that does. -/
def Located.importKind? (text : Array Char) (l : Located) : Option ImportKind :=
  match l.kind with
  | .templateString =>
    if l.tree.children.any fun t => t.kind = .templateSubstitution then none
    else l.callKind? text
  | .string =>
    match l.above.head?.map Tree.kind with
    | some .importStatement => some .import
    | some .exportStatement => some .exportFrom
    | some .importRequireClause => some .importEquals
    | _ => l.callKind? text
  | _ => none

end Outline

end ImportAudit
