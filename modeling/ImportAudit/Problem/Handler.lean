/-
# ImportAudit.Problem.Handler — telling listeners of problems.

A handler counts problems by category and passes each to the listeners, in the order in which they
were registered, once for every time they were registered.  A listener that fails has still heard
the problem, and those after it hear it too.  Every report makes one log record for the problem and
one for each listener that fails.
-/
import ImportAudit.Log.Record
import ImportAudit.Problem.Record

namespace ImportAudit

/-- A listener: its name, and how it fails at every problem if it does. -/
structure Listener where
  name : String
  failure : Option Fault := none
  deriving Repr

/-- A handler: the logger it writes to, its listeners, how many problems of each category were
reported, what was heard by whom, and the problems themselves, in the order of the reports. -/
structure Handler where
  logger : String := "implicit_deps"
  listeners : List Listener := []
  counts : List (Category × Nat) := []
  heard : List (String × Problem) := []
  problems : List Problem := []

namespace Handler

/-- Registers a listener behind the others. -/
def add (h : Handler) (l : Listener) : Handler := { h with listeners := h.listeners ++ [l] }

/-- The listeners without the first one of a name. -/
def removeFirst (name : String) : List Listener → List Listener
  | [] => []
  | l :: ls => if l.name = name then ls else l :: removeFirst name ls

/-- Takes back the first registration of a listener, if there is one. -/
def remove (h : Handler) (name : String) : Handler :=
  { h with listeners := removeFirst name h.listeners }

/-- A name that no registered listener has: it is longer than all of theirs. -/
def freshName (h : Handler) : String := h.listeners.foldl (fun name l => name ++ l.name) "listener"

/-- The counts with one more problem of a category. -/
def tally (c : Category) : List (Category × Nat) → List (Category × Nat)
  | [] => [(c, 1)]
  | (d, n) :: ns => if d = c then (d, n + 1) :: ns else (d, n) :: tally c ns

/-- How many problems of a category were reported. -/
def count (h : Handler) (c : Category) : Nat := (h.counts.lookup c).getD 0

/-- What the log says of a problem. -/
def note (p : Problem) : String :=
  p.describe ++ " | component=" ++ p.component ++ " function=" ++ p.activity

/-- What the log says of a listener that fails. -/
def failureNote (f : Fault) : String := "Error in error listener: " ++ f.message

/-- The log records of a report. -/
def records (h : Handler) (clock : Log.Clock) (p : Problem) : List Log.Record :=
  ⟨clock, .warning, h.logger, note p, []⟩ ::
    h.listeners.filterMap fun l =>
      l.failure.map fun f => ⟨clock, .error, h.logger, failureNote f, []⟩

/-- The handler after a report. -/
def report (h : Handler) (p : Problem) : Handler :=
  { h with
    counts := tally p.category h.counts
    heard := h.heard ++ h.listeners.map fun l => (l.name, p)
    problems := h.problems ++ [p] }

/-- Loggers below the program's own pass their records on to it, so that each is written twice. -/
def passesOn (h : Handler) : Bool := "implicit_deps.".toList.isPrefixOf h.logger.toList

/-- The log lines of a report. -/
def lines (h : Handler) (clock : Log.Clock) (p : Problem) : List String :=
  (h.records clock p).flatMap fun r =>
    if h.passesOn then [r.plainLine, r.plainLine] else [r.plainLine]

end Handler

end ImportAudit
