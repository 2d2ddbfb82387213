/-
# ImportAudit.Check.Inspection — an analysis as it is used, operation by operation.

Iterators are numbered in the order in which they were started.  An iterator that was never started
has nothing to give.
-/
import ImportAudit.Check.Analysis

namespace ImportAudit

/-- What can be asked of an analysis. -/
inductive Operation
  | start
  | next (iterator : Nat)
  | allowed
  | shouldReport (package : String)
  deriving DecidableEq, Repr

/-- What is answered. -/
inductive Answer
  | started (iterator : Nat)
  | finding (f? : Option Finding)
  | names (packages : List String)
  | verdict (report : Bool)
  deriving DecidableEq, Repr

/-- An analysis and the references that are left to each of its iterators. -/
structure Inspection where
  analysis : Analysis
  iterators : List (List Reference) := []

namespace Inspection

/-- The inspection of a file that nothing has been asked about yet. -/
def ofFile (file : SourceFile) (options : RuleOptions) : Inspection where
  analysis := { file, options }

variable {m : Type → Type} [Monad m]

/-- Runs a step of the analysis. -/
def analyse {α : Type} (step : StateT Analysis m α) : StateT Inspection m α := do
  let i ← get
  let (a, analysis) ← step.run i.analysis
  set { i with analysis }
  pure a

/-- Performs one operation. -/
def perform (resolver : Resolver m) : Operation → StateT Inspection m Answer
  | .start => do
    let i ← get
    set { i with iterators := i.iterators ++ [i.analysis.file.allReferences] }
    pure (.started i.iterators.length)
  | .next n => do
    let i ← get
    let (finding?, rest) ← analyse (Analysis.next resolver (i.iterators[n]?.getD []))
    modify fun i => { i with iterators := i.iterators.set n rest }
    pure (.finding finding?)
  | .allowed => .names <$> analyse (Analysis.allowed resolver)
  | .shouldReport package => .verdict <$> analyse (Analysis.shouldReport resolver package)

/-- Performs operations one after the other. -/
def performAll (resolver : Resolver m) : List Operation → StateT Inspection m (List Answer)
  | [] => pure []
  | o :: os => do
    let answer ← perform resolver o
    let answers ← performAll resolver os
    pure (answer :: answers)

end Inspection

end ImportAudit
