/-
# ImportAudit.Command.Outcome — carrying out what a command line asks for.

A run of a command ends with a status.  A command line that is refused, by its shape or by the
command itself, is told of together with the usage of the command.
-/
import ImportAudit.Command.Arguments
import ImportAudit.Command.Help
import ImportAudit.Session.Basic
import ImportAudit.Text.Letters

namespace ImportAudit.Command

/-- The status of a run that did what it was asked for. -/
def succeeded : Nat := 0

/-- The status of a run in which something was found or could not be done. -/
def failed : Nat := 1

/-- The status of a run whose command line was refused or in which a file could not be checked. -/
def refused : Nat := 2

/-- Tells why a command line is refused. -/
def refuse (s : Shape) (c : Complaint) : Run Nat := do
  if c.isOfCommand then
    Run.complain (s.usage ++ "\nTry '" ++ s.words ++ " --help' for help.\n")
  Run.complain ("Error: " ++ c.message)
  pure refused

/-- Tells why something cannot be done. -/
def decline (message : String) : Run Nat := do
  Run.complain ("Error: " ++ message)
  pure failed

/-- Prints the help text of a command. -/
def help (s : Shape) : Run Nat := do
  Run.echo s.helpText
  pure succeeded

/-- Reads a command line and goes on with its arguments. -/
def withArguments (s : Shape) (words : List String) (body : Arguments → Run Nat) : Run Nat := do
  let session ← get
  match s.read session.files session.workingDir words with
  | .error c => refuse s c
  | .ok none => help s
  | .ok (some a) => body a

/-- A command that does something: it may refuse its arguments itself. -/
def perform (s : Shape) (body : Arguments → Run Nat) (words : List String) : Run Nat :=
  withArguments s words fun a =>
    tryCatch (body a) fun
      | .usage message => refuse s (.other message)
      | f => throw f

/-- A name that no command has looks like an option. -/
def looksLikeOption (name : String) : Bool :=
  match name.toList with
  | [] => false
  | c :: _ => !Text.isAlphanumeric c

/-- Tells that there is no command of a name; a name that looks like an option is read as one. -/
def refuseName (s : Shape) (name : String) (words : List String) : Run Nat :=
  let refusal := refuse s (.unknownCommand name (Text.resembling name s.commandNames))
  if looksLikeOption name then withArguments s (name :: words) fun _ => refusal else refusal

/-- A command that has others below it: `own` may end the run by itself before one of them is
called. -/
def descend (s : Shape) (own : Arguments → Run (Option Nat)) (alone : Run Nat)
    (below : String → Option (List String → Run Nat)) (words : List String) : Run Nat :=
  withArguments s words fun a =>
    match a.rest with
    | [] => do
      match ← own a with
      | some status => pure status
      | none => alone
    | name :: more =>
      match below name with
      | none => refuseName s name more
      | some command => do
        match ← own a with
        | some status => pure status
        | none => command more

end ImportAudit.Command
