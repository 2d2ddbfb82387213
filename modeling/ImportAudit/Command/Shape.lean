/-
# ImportAudit.Command.Shape — what a command can be given.

A command has options, and what follows them: operands or the name of a command below it.  Its shape
says all that is needed to read a command line and to word a help text.
-/
import ImportAudit.Text.Casing

namespace ImportAudit.Command

/-- What a text on a command line is good for: anything, a path that leads to something, a path that
leads to no directory and may have to lead to something, or one of some names. -/
inductive Use
  | anything
  | present
  | file (mustExist : Bool)
  | oneOf (names : List String)
  deriving DecidableEq, Repr

/-- An option: its name, its letter if it has one, what the text behind it is good for if there has
to be one, and a line of help. -/
structure Switch where
  name : String
  letter : Option Char := none
  use : Option Use := none
  help : String
  deriving DecidableEq, Repr

/-- An operand: what it is called, what it is good for, whether there may be many, and what stands
for it where there is none. -/
structure Operand where
  label : String
  use : Use
  many : Bool := false
  fallback : Option String := none
  deriving DecidableEq, Repr

/-- What follows the options: nothing, operands, or a command and its own command line. -/
inductive Rest
  | nothing
  | operands (operand : Operand)
  | commands (mustExist : Bool) (summaries : List (String × String))
  deriving DecidableEq, Repr

/-- A command: the words that call it, paragraphs about it, its options, and what follows them. -/
structure Shape where
  words : String
  about : List (Nat × String)
  switches : List Switch
  rest : Rest
  deriving Repr

/-- The option that every command has. -/
def helpSwitch : Switch := { name := "--help", help := "Show this message and exit." }

namespace Shape

/-- All options of a command. -/
def allSwitches (s : Shape) : List Switch := s.switches ++ [helpSwitch]

/-- Options may come behind what they precede elsewhere, unless that is a command line. -/
def mixes (s : Shape) : Bool :=
  match s.rest with
  | .commands _ _ => false
  | _ => true

/-- The names of the commands below a command. -/
def commandNames (s : Shape) : List String :=
  match s.rest with
  | .commands _ summaries => summaries.map Prod.fst
  | _ => []

end Shape

/-! ## Names that are equal but for the case of letters -/

/-- A text without the difference between cases; the long s counts as an s. -/
def folded (text : String) : String :=
  Text.lower (String.ofList (text.toList.map fun c => if c.toNat = 0x17F then 's' else c))

end ImportAudit.Command
