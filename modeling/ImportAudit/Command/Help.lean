/-
# ImportAudit.Command.Help — the help texts of commands.

A help text shows how a command is called, tells about it, and lists its options and the commands
below it.  Lines are at most eighty characters long.
-/
import ImportAudit.Command.Shape
import ImportAudit.Text.Trim

namespace ImportAudit.Command

/-- The greatest length of a line. -/
def helpWidth : Nat := 80

/-! ## Layout -/

/-- Spaces. -/
def spaces (n : Nat) : String := String.ofList (List.replicate n ' ')

/-- The lines that words make up behind those that `line` holds already. -/
def fillFrom (width : Nat) (line : List Char) : List (List Char) → List (List Char)
  | [] => [line]
  | word :: words =>
    if line.length + 1 + word.length ≤ width then fillFrom width (line ++ ' ' :: word) words
    else line :: fillFrom width word words

/-- The lines of a text. -/
def fill (width : Nat) (text : String) : List String :=
  match Text.words text.toList with
  | [] => []
  | word :: words => (fillFrom width word words).map String.ofList

/-- The lines of a paragraph, indented by two spaces and its own indentation. -/
def paragraph (indent : Nat) (text : String) : List String :=
  (fill (helpWidth - (indent + 2)) text).map fun l => spaces (indent + 2) ++ l

/-- The lines of a term and what it means, which begins in a column of its own. -/
def definition (column : Nat) (term meaning : String) : List String :=
  match fill (helpWidth - 2 - column) meaning with
  | [] => ["  " ++ term]
  | line :: lines =>
    ("  " ++ term ++ spaces (column - term.length) ++ line) ::
      lines.map fun l => spaces (column + 2) ++ l

/-- The lines of terms and what they mean, under a heading. -/
def definitions (heading : String) (entries : List (String × String)) : List String :=
  let column := (entries.map fun e => e.1.length).foldl max 0 + 2
  "" :: (heading ++ ":") :: entries.flatMap fun e => definition column e.1 e.2

/-! ## The parts of a help text -/

/-- What stands for a text on a command line. -/
def Use.placeholder : Use → String
  | .anything => "TEXT"
  | .present => "PATH"
  | .file _ => "FILE"
  | .oneOf names => "[" ++ "|".intercalate names ++ "]"

/-- An option as it is listed. -/
def Switch.term (s : Switch) : String :=
  (match s.letter with
    | some c => String.ofList ['-', c, ',', ' ']
    | none => "") ++ s.name ++
  (match s.use with
    | some u => " " ++ u.placeholder
    | none => "")

/-- What follows the options, as it is shown. -/
def Rest.placeholder : Rest → String
  | .nothing => ""
  | .operands o => " " ++ o.label
  | .commands true _ => " COMMAND [ARGS]..."
  | .commands false _ => " [COMMAND] [ARGS]..."

namespace Shape

/-- How a command is called. -/
def usage (s : Shape) : String := "Usage: " ++ s.words ++ " [OPTIONS]" ++ s.rest.placeholder

/-- The lines of the help text of a command. -/
def helpLines (s : Shape) : List String :=
  s.usage :: s.about.flatMap (fun p => "" :: paragraph p.1 p.2) ++
    definitions "Options" (s.allSwitches.map fun w => (w.term, w.help)) ++
    match s.rest with
    | .commands _ summaries => definitions "Commands" summaries
    | _ => []

/-- The help text of a command. -/
def helpText (s : Shape) : String := "\n".intercalate s.helpLines

end Shape

end ImportAudit.Command
