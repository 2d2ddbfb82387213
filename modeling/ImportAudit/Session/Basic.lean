/-
# ImportAudit.Session.Basic — what a run of the program works on.

A session holds all that a run reads and changes: the files, the environment, the loggers, the
handler of problems, the settings once they were loaded, and what was printed.  A run may end in a
fault, and what it did before that stays done.
-/
import ImportAudit.Console.Panel
import ImportAudit.Files.Tree
import ImportAudit.Log.Trace
import ImportAudit.Problem.Handler
import ImportAudit.Settings.Environment
import ImportAudit.Text.Terminal

namespace ImportAudit

/-- The state of a run. -/
structure Session where
  files : Files.Tree := {}
  workingDir : Files.Place := []
  environment : Environment := []
  clock : Log.Clock
  loggers : Log.Loggers := {}
  handler : Handler := {}
  settings : Option Settings := none
  output : String := ""
  errors : String := ""
  log : List String := []

/-- A run: it works on a session, and ends with a value or in a fault. -/
abbrev Run := ExceptT Fault (StateM Session)

namespace Run

/-- The width of the console that results are printed on. -/
def outputWidth : Nat := 100

/-- The width of the console that warnings are printed on, on which no line is ever broken. -/
def warningWidth : Nat := 100000

variable {α : Type}

/-- A run that ends as a value or a fault says. -/
def ofExcept : Except Fault α → Run α
  | .ok a => pure a
  | .error f => throw f

/-- Prints a text that has no commands to a terminal in it, as JSON and help texts have none. -/
def echo (text : String) : Run Unit := modify fun s => { s with output := s.output ++ text ++ "\n" }

/-- Prints any text, without commands to a terminal. -/
def echoPlain (text : String) : Run Unit := echo (Text.withoutCommands text)

/-- Prints any text where errors go, without commands to a terminal. -/
def complain (text : String) : Run Unit :=
  modify fun s => { s with errors := s.errors ++ Text.withoutCommands text ++ "\n" }

/-- Prints blocks up to the first that cannot be printed, which is a fault. -/
def print (blocks : List (Except Fault String)) : Run Unit := do
  let (text, fault) := Console.printAll blocks
  modify fun s => { s with output := s.output ++ text }
  match fault with
  | none => pure ()
  | some f => throw f

/-- Prints a text with markup. -/
def say (text : String) : Run Unit := print [Console.paragraph outputWidth text]

/-- Prints a text with markup where errors go, on a console of a width. -/
def warnAt (width : Nat) (text : String) : Run Unit := do
  let shown ← ofExcept (Console.paragraph width text)
  modify fun s => { s with errors := s.errors ++ shown }

/-- Prints a warning. -/
def warn (text : String) : Run Unit := warnAt warningWidth text

/-- Writes lines to the log. -/
def trace (lines : List String) : Run Unit := modify fun s => { s with log := s.log ++ lines }

/-- Changes the loggers and writes lines to the log. -/
def traceWith (step : Log.Loggers → Log.Clock → Log.Loggers × List String) : Run Unit :=
  modify fun s =>
    let (loggers, lines) := step s.loggers s.clock
    { s with loggers, log := s.log ++ lines }

/-- Reports a problem. -/
def report (p : Problem) : Run Unit :=
  modify fun s =>
    { s with handler := s.handler.report p, log := s.log ++ s.handler.lines s.clock p }

/-- Reports a problem if there is one. -/
def reportAny : Option Problem → Run Unit
  | none => pure ()
  | some p => report p

/-- Runs and then changes the session, also where the run ends in a fault. -/
def andAfterwards (run : Run α) (change : Session → Session) : Run α :=
  fun s => let (result, s) := run s; (result, change s)

end Run

end ImportAudit
