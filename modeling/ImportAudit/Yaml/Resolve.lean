/-
# ImportAudit.Yaml.Resolve — which kind of value a plain text is.

A plain text without a tag is a truth value, a number, a date, nothing at all, or else a text, which
is told by how it is written.
-/
import ImportAudit.Data.Moment
import ImportAudit.Yaml.Fault

namespace ImportAudit.Yaml

/-- The tags of the kinds of values, and any other tag. -/
inductive Tag
  | null
  | bool
  | int
  | float
  | binary
  | timestamp
  | omap
  | pairs
  | set
  | text
  | sequence
  | mapping
  | merge
  | value
  | other (name : String)
  deriving DecidableEq, Repr

namespace Tag

/-- What the names of the common tags begin with. -/
def common : String := "tag:yaml.org,2002:"

/-- The names of the common tags. -/
def names : List (String × Tag) :=
  [("null", .null), ("bool", .bool), ("int", .int), ("float", .float), ("binary", .binary),
    ("timestamp", .timestamp), ("omap", .omap), ("pairs", .pairs), ("set", .set), ("str", .text),
    ("seq", .sequence), ("map", .mapping), ("merge", .merge), ("value", .value)]

/-- The tag of a name. -/
def ofName (name : String) : Tag :=
  match names.find? fun t => common ++ t.1 = name with
  | some t => t.2
  | none => .other name

end Tag

namespace Plain

/-! ## Shapes -/

/-- A binary digit. -/
def isBinary (c : Char) : Bool := c == '0' || c == '1'

/-- An octal digit. -/
def isOctal (c : Char) : Bool := '0' ≤ c && c ≤ '7'

/-- A hexadecimal digit. -/
def isHex (c : Char) : Bool := c.isDigit || ('a' ≤ c && c ≤ 'f') || ('A' ≤ c && c ≤ 'F')

/-- A text without its sign. -/
def unsigned (cs : List Char) : List Char :=
  match cs with
  | '+' :: rest | '-' :: rest => rest
  | cs => cs

/-- Digits and underscores. -/
def isDigits (p : Char → Bool) (cs : List Char) : Bool := cs.all fun c => p c || c == '_'

/-- Parts behind colons, each of one digit or of two that are below sixty. -/
def isSixties : List Char → Bool
  | [] => true
  | ':' :: a :: rest =>
    a.isDigit &&
      match rest with
      | [] => true
      | b :: more => if b.isDigit then a ≤ '5' && isSixties more else isSixties (b :: more)
  | _ => false

/-- A digit, and digits and underscores behind it: the rest. -/
def leadingDigits (cs : List Char) : Option (List Char) :=
  match cs with
  | c :: rest => if c.isDigit then some (rest.dropWhile fun c => c.isDigit || c == '_') else none
  | [] => none

/-- The text is a whole number. -/
def isInt (cs : List Char) : Bool :=
  match unsigned cs with
  | '0' :: 'b' :: rest => !rest.isEmpty && isDigits isBinary rest
  | '0' :: 'x' :: rest => !rest.isEmpty && isDigits isHex rest
  | '0' :: rest => isDigits isOctal rest
  | cs =>
    match leadingDigits cs with
    | some rest => isSixties rest
    | none => false

/-- Nothing, or an exponent with a sign. -/
def isExponent (cs : List Char) : Bool :=
  match cs with
  | [] => true
  | e :: s :: ds =>
    (e == 'e' || e == 'E') && (s == '+' || s == '-') && !ds.isEmpty && ds.all Char.isDigit
  | _ => false

/-- The text is a number with a point. -/
def isFloat (cs : List Char) : Bool :=
  let body := unsigned cs
  let afterPoint := fun (cs : List Char) => cs.dropWhile fun c => c.isDigit || c == '_'
  [".inf", ".Inf", ".INF"].contains (String.ofList body) ||
    [".nan", ".NaN", ".NAN"].contains (String.ofList cs) ||
    (match cs with
      | '.' :: d :: rest => d.isDigit && isExponent (afterPoint rest)
      | _ => false) ||
    (match leadingDigits body with
      | some ('.' :: rest) => isExponent (afterPoint rest)
      | some (':' :: rest) =>
        let sixties := (':' :: rest).takeWhile fun c => c != '.'
        isSixties sixties &&
          (match (':' :: rest).dropWhile fun c => c != '.' with
            | '.' :: rest => isDigits Char.isDigit rest
            | _ => false)
      | _ => false)

/-- Takes from one to two digits, or exactly two. -/
def twoDigits (exactly : Bool) (cs : List Char) : Option (Nat × List Char) :=
  match cs with
  | a :: rest =>
    if !a.isDigit then none
    else
      match rest with
      | b :: more =>
        if b.isDigit then some ((a.toNat - 48) * 10 + (b.toNat - 48), more)
        else if exactly then none
        else some (a.toNat - 48, b :: more)
      | [] => if exactly then none else some (a.toNat - 48, [])
  | [] => none

/-- Takes a character. -/
def one (c : Char) (cs : List Char) : Option (List Char) :=
  match cs with
  | d :: rest => if d = c then some rest else none
  | [] => none

/-- The offset from the common time that a text tells. -/
def offsetOf? (cs : List Char) : Option (Option Int) := do
  match cs.dropWhile fun c => c == ' ' || c == '\t' with
  | [] => if cs = [] then pure none else none
  | ['Z'] => pure (some 0)
  | s :: rest =>
    if s ≠ '+' ∧ s ≠ '-' then none
    else
      let (hours, rest) ← twoDigits false rest
      let minutes ← match rest with
        | [] => some 0
        | rest => do
          let (minutes, rest) ← twoDigits true (← one ':' rest)
          if rest = [] then some minutes else none
      let total : Int := hours * 60 + minutes
      pure (some (if s = '-' then -total else total))

/-- The microseconds that the digits of a fraction stand for. -/
def microsOf (ds : List Char) : Nat :=
  let ds := ds.take 6
  (ds ++ List.replicate (6 - ds.length) '0').foldl (fun n d => n * 10 + (d.toNat - 48)) 0

/-- The time that a text tells, and its offset if it has one. -/
def timeOf? (cs : List Char) : Option (TimeOfDay × Option Int) := do
  let (hour, rest) ← twoDigits false cs
  let (minute, rest) ← twoDigits true (← one ':' rest)
  let (second, rest) ← twoDigits true (← one ':' rest)
  let (fraction, rest) := match rest with
    | '.' :: more => (more.takeWhile Char.isDigit, more.dropWhile Char.isDigit)
    | rest => ([], rest)
  pure (⟨hour, minute, second, microsOf fraction⟩, ← offsetOf? rest)

/-- The date that a text tells, with a time if there is one. -/
def momentOf? (cs : List Char) : Option Moment := do
  let (century, rest) ← twoDigits true cs
  let (year, rest) ← twoDigits true rest
  let (month, rest) ← twoDigits false (← one '-' rest)
  let (day, rest) ← twoDigits false (← one '-' rest)
  let date : Moment := { year := century * 100 + year, month, day }
  match rest with
  | [] => if cs.length = 10 then pure date else none
  | c :: more =>
    let more ←
      if c = 'T' ∨ c = 't' then some more
      else if c = ' ' ∨ c = '\t' then some (more.dropWhile fun c => c == ' ' || c == '\t')
      else none
    let (time, offset) ← timeOf? more
    pure { date with time := some time, offset }

/-! ## Tags -/

/-- The texts that are true. -/
def truths : List String := ["yes", "Yes", "YES", "true", "True", "TRUE", "on", "On", "ON"]

/-- The texts that are false. -/
def falsehoods : List String := ["no", "No", "NO", "false", "False", "FALSE", "off", "Off", "OFF"]

/-- The texts that are nothing. -/
def nothings : List String := ["", "~", "null", "Null", "NULL"]

/-- The tag of a plain text. -/
def tagOf (text : String) : Tag :=
  let cs := text.toList
  if truths.contains text || falsehoods.contains text then .bool
  else if isFloat cs then .float
  else if isInt cs then .int
  else if text = "<<" then .merge
  else if nothings.contains text then .null
  else if (momentOf? cs).isSome then .timestamp
  else if text = "=" then .value
  else .text

end Plain

end ImportAudit.Yaml
