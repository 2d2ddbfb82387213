/-
# ImportAudit.Check.Analysis — judging the references of one source file.

An analysis belongs to one file.  Which packages the file may import is asked of a resolver, at the
first reference for which it matters and not again.  The findings can be taken one by one, by any
number of iterators that share the answer of the resolver, or all at once.  What else happens in
between is up to the monad that the resolver works in.
-/
import ImportAudit.Check.Finding
import ImportAudit.Check.Options
import ImportAudit.Specifier

namespace ImportAudit

/-- Says which packages the file of the given name may import. -/
abbrev Resolver (m : Type → Type) := String → RuleOptions → m (List String)

/-- What is known while a file is judged: the file, the options, and the packages that may be
imported if they were asked for. -/
structure Analysis where
  file : SourceFile
  options : RuleOptions
  allowed? : Option (List String) := none

namespace Analysis

variable {m : Type → Type} [Monad m]

/-! ## One package, one reference -/

/-- The packages that the file may import. -/
def allowed (resolver : Resolver m) : StateT Analysis m (List String) := do
  let a ← get
  match a.allowed? with
  | some names => pure names
  | none =>
    let names ← resolver a.file.fileName a.options
    set { a with allowed? := some names }
    pure names

/-- A package is neither allowed nor ignored. -/
def shouldReport (resolver : Resolver m) (package : String) : StateT Analysis m Bool := do
  let names ← allowed resolver
  let a ← get
  pure !(names.contains package || a.options.ignores package)

/-- The finding that a reference makes, if it does. -/
def judge (resolver : Resolver m) (r : Reference) : StateT Analysis m (Option Finding) := do
  match Target.ofSpecifier r.text with
  | .external package =>
    if ← shouldReport resolver package then
      let a ← get
      pure (some (.ofReference a.file.fileName r package))
    else pure none
  | _ => pure none

/-! ## Many references -/

/-- The next finding among the references that are left to an iterator, and what is left then. -/
def next (resolver : Resolver m) :
    List Reference → StateT Analysis m (Option Finding × List Reference)
  | [] => pure (none, [])
  | r :: rest => do
    match ← judge resolver r with
    | some finding => pure (some finding, rest)
    | none => next resolver rest

/-- The findings among references; `note` is told of each as it is made. -/
def collect (resolver : Resolver m) (note : Finding → m Unit) :
    List Reference → StateT Analysis m (List Finding)
  | [] => pure []
  | r :: rest => do
    match ← judge resolver r with
    | some finding =>
      note finding
      let findings ← collect resolver note rest
      pure (finding :: findings)
    | none => collect resolver note rest

end Analysis

/-- All references of a source file, in text order. -/
def SourceFile.allReferences (file : SourceFile) : List Reference :=
  file.references ImportKind.all

/-- The findings of a source file, in text order; `note` is told of each as it is made. -/
def SourceFile.findings {m : Type → Type} [Monad m] (file : SourceFile) (options : RuleOptions)
    (resolver : Resolver m) (note : Finding → m Unit) : m (List Finding) :=
  (Analysis.collect resolver note file.allReferences).run' { file, options }

end ImportAudit
