/-
# ImportAudit.Text.Terminal — texts without commands to a terminal.

A text may have commands in it that a terminal obeys and does not show: an escape character and a
bracket, parameters, and a letter.  Where texts go elsewhere than to a terminal they are printed
without these.
-/

namespace ImportAudit.Text

/-- The character that opens a command. -/
def escapeChar : Char := '\x1b'

/-- A character of the parameters of a command. -/
def isParameter (c : Char) : Bool := c == ';' || c == '?' || ('0' ≤ c && c ≤ '9')

/-- A letter that ends a command. -/
def endsCommand (c : Char) : Bool := ('a' ≤ c && c ≤ 'z') || ('A' ≤ c && c ≤ 'Z')

/-- The number of characters from the parameters of a command up to its letter; there is no command
without a letter. -/
def parametersLength : List Char → Option Nat
  | [] => none
  | c :: cs =>
    if isParameter c then (parametersLength cs).map (· + 1)
    else if endsCommand c then some 1
    else none

/-- The number of characters of the command that characters begin with, if they begin with one. -/
def commandLength : List Char → Option Nat
  | c :: d :: cs =>
    if c = escapeChar ∧ d = '[' then (parametersLength cs).map (· + 2) else none
  | _ => none

/-- Characters without the commands in them; the first ones belong to a command that was found. -/
def dropCommands : Nat → List Char → List Char
  | _, [] => []
  | found + 1, _ :: cs => dropCommands found cs
  | 0, c :: cs =>
    match commandLength (c :: cs) with
    | some length => dropCommands (length - 1) cs
    | none => c :: dropCommands 0 cs

/-- A text without the commands in it. -/
def withoutCommands (text : String) : String := String.ofList (dropCommands 0 text.toList)

end ImportAudit.Text
