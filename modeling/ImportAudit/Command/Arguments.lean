/-
# ImportAudit.Command.Arguments — reading a command line.

A word that begins with a dash is an option or, if it has one dash, a row of letters that stand for
options.  A text that belongs to an option follows it, behind an equals sign or as the next word.
Behind two dashes there are no options.
-/
import ImportAudit.Command.Shape
import ImportAudit.Files.Tree
import ImportAudit.Text.Quoted
import ImportAudit.Text.Resemblance

namespace ImportAudit.Command

/-- What a command line gives: options, each with a text, in their order, and what follows them. -/
structure Arguments where
  given : List (Switch × String) := []
  rest : List String := []
  deriving Repr

/-- Why a command line is refused. -/
inductive Complaint
  | unknownOption (name : String) (alike : List String)
  | unknownCommand (name : String) (alike : List String)
  | needlessText (name : String)
  | missingText (name : String)
  | missingOperand (label : String)
  | missingCommand
  | unusable (owner reason : String)
  | surplus (words : List String)
  | other (message : String)
  deriving DecidableEq, Repr

namespace Complaint

/-- What is said of names that are alike. -/
def suggestion : List String → String
  | [] => ""
  | [name] => " Did you mean " ++ Text.quoted name ++ "?"
  | names => " (Did you mean one of: " ++ ", ".intercalate (names.map Text.quoted) ++ "?)"

/-- The message of a complaint. -/
def message : Complaint → String
  | .unknownOption name alike => "No such option " ++ Text.quoted name ++ "." ++ suggestion alike
  | .unknownCommand name alike => "No such command " ++ Text.quoted name ++ "." ++ suggestion alike
  | .needlessText name => "Option " ++ Text.quoted name ++ " does not take a value."
  | .missingText name => "Option " ++ Text.quoted name ++ " requires an argument."
  | .missingOperand label => "Missing argument '" ++ label ++ "'."
  | .missingCommand => "Missing command."
  | .unusable owner reason => "Invalid value for " ++ owner ++ ": " ++ reason
  | .surplus words =>
    "Got unexpected extra argument" ++ (if words.length = 1 then "" else "s") ++ " (" ++
      " ".intercalate words ++ ")"
  | .other message => message

/-- A complaint of a text that an option has or lacks is made before it is known which command the
option belongs to. -/
def isOfCommand : Complaint → Bool
  | .needlessText _ | .missingText _ => false
  | _ => true

end Complaint

/-! ## Words -/

/-- What a word gives: options with their texts, and an option whose text is the next word, with the
name by which it is called. -/
abbrev Word := List (Switch × String) × Option (Switch × String)

/-- The options that a row of letters stands for. -/
def readLetters (switches : List Switch) : List Char → Except Complaint Word
  | [] => .ok ([], none)
  | c :: cs =>
    let name := String.ofList ['-', c]
    match switches.find? fun s => s.letter = some c with
    | none => .error (.unknownOption name [])
    | some s =>
      if s.use.isNone then
        match readLetters switches cs with
        | .error e => .error e
        | .ok (given, pending) => .ok ((s, "") :: given, pending)
      else if cs = [] then .ok ([], some (s, name))
      else .ok ([(s, String.ofList cs)], none)

/-- The name of an option in a word, and the text behind an equals sign if there is one. -/
def splitWord (word : List Char) : String × Option String :=
  let name := String.ofList (word.takeWhile (· ≠ '='))
  match word.dropWhile (· ≠ '=') with
  | [] => (name, none)
  | _ :: text => (name, some (String.ofList text))

/-- The options that a word stands for. -/
def readWord (switches : List Switch) (word : List Char) : Except Complaint Word :=
  let (name, text) := splitWord word
  match switches.find? fun s => s.name = name with
  | some s =>
    match s.use, text with
    | none, none => .ok ([(s, "")], none)
    | none, some _ => .error (.needlessText name)
    | some _, none => .ok ([], some (s, name))
    | some _, some text => .ok ([(s, text)], none)
  | none =>
    match word with
    | '-' :: '-' :: _ =>
      .error (.unknownOption name (Text.resembling name (switches.map Switch.name)))
    | _ => readLetters switches word.tail

/-- A word stands for options. -/
def isOption (word : List Char) : Bool := word.head? = some '-' && 1 < word.length

/-- Reads words; `pending` is the option that the next word belongs to. -/
def readWords (switches : List Switch) (mixes : Bool) (a : Arguments) :
    Option (Switch × String) → List String → Except Complaint Arguments
  | none, [] => .ok a
  | some (_, name), [] => .error (.missingText name)
  | some (s, _), text :: words =>
    readWords switches mixes { a with given := a.given ++ [(s, text)] } none words
  | none, word :: words =>
    if word = "--" then .ok { a with rest := a.rest ++ words }
    else if isOption word.toList then
      match readWord switches word.toList with
      | .error e => .error e
      | .ok (given, pending) =>
        readWords switches mixes { a with given := a.given ++ given } pending words
    else if mixes then readWords switches mixes { a with rest := a.rest ++ [word] } none words
    else .ok { a with rest := a.rest ++ word :: words }

namespace Arguments

/-- An option is given. -/
def has (a : Arguments) (name : String) : Bool := a.given.any fun g => g.1.name = name

/-- The texts that are given with an option. -/
def texts (a : Arguments) (name : String) : List String :=
  a.given.filterMap fun g => if g.1.name = name then some g.2 else none

/-- The text that is given with an option; the last one counts. -/
def text? (a : Arguments) (name : String) : Option String := (a.texts name).getLast?

end Arguments

/-! ## Uses -/

open Files

/-- Why a text is not good for a use. -/
def Use.objection? (t : Tree) (workingDir : Place) (u : Use) (text : String) : Option String :=
  match u with
  | .anything => none
  | .present =>
    match t.find workingDir text with
    | .ok _ => none
    | .error _ => some ("Path " ++ Text.quoted text ++ " does not exist.")
  | .file mustExist =>
    match t.find workingDir text with
    | .ok .directory => some ("File " ++ Text.quoted text ++ " is a directory.")
    | .ok _ => none
    | .error _ =>
      if mustExist then some ("File " ++ Text.quoted text ++ " does not exist.") else none
  | .oneOf names =>
    if (names.map folded).contains (folded text) then none
    else
      some (Text.quoted text ++ " is not one of " ++
        ", ".intercalate (names.map Text.quoted) ++ ".")

/-- What an option is called where its text is objected to. -/
def Switch.owner (s : Switch) : String :=
  "'" ++ s.name ++ "'" ++
    match s.letter with
    | some c => " / '" ++ String.ofList ['-', c] ++ "'"
    | none => ""

/-- The complaint about the text of an option, if there is one. -/
def Switch.complaint? (t : Tree) (workingDir : Place) (s : Switch) (text : String) :
    Option Complaint :=
  match s.use with
  | none => none
  | some u => (u.objection? t workingDir text).map (.unusable s.owner)

/-- The complaint about operands, if there is one. -/
def Operand.complaint? (t : Tree) (workingDir : Place) (o : Operand) (words : List String) :
    Option Complaint :=
  let check := fun text => (o.use.objection? t workingDir text).map
    (Complaint.unusable ("'" ++ o.label ++ "'"))
  match words, o.fallback with
  | [], none => some (.missingOperand o.label)
  | [], some text => check text
  | word :: words, _ => if o.many then (word :: words).findSome? check else check word

/-- The words that are too many. -/
def Rest.surplus (r : Rest) (words : List String) : List String :=
  match r with
  | .nothing => words
  | .operands o => if o.many then [] else words.drop 1
  | .commands _ _ => []

/-- The complaint about what follows the options, if there is one. -/
def Rest.complaint? (t : Tree) (workingDir : Place) (r : Rest) (words : List String) :
    Option Complaint :=
  match r with
  | .operands o => o.complaint? t workingDir words
  | _ => none

namespace Shape

/-- The complaint about arguments, if there is one: options come in the order in which they are
first given, then what follows them, then what is too much. -/
def complaint? (t : Tree) (workingDir : Place) (s : Shape) (a : Arguments) : Option Complaint :=
  let switches := (a.given.map Prod.fst).eraseDups
  ((switches.findSome? fun w => w.complaint? t workingDir ((a.text? w.name).getD "")).or
    (s.rest.complaint? t workingDir a.rest)).or
    (match s.rest.surplus a.rest with
      | [] => none
      | words => some (.surplus words))

/-- What a command line gives a command, or nothing if it asks for help. -/
def read (t : Tree) (workingDir : Place) (s : Shape) (words : List String) :
    Except Complaint (Option Arguments) :=
  match readWords s.allSwitches s.mixes {} none words with
  | .error e => .error e
  | .ok a =>
    if a.has helpSwitch.name then .ok none
    else
      match s.complaint? t workingDir a with
      | some e => .error e
      | none => .ok (some a)

/-- The operand of a command that has one at most. -/
def operand (s : Shape) (a : Arguments) : String :=
  match a.rest, s.rest with
  | word :: _, _ => word
  | [], .operands o => o.fallback.getD ""
  | [], _ => ""

end Shape

end ImportAudit.Command
