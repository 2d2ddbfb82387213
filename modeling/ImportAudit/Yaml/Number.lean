/-
# ImportAudit.Yaml.Number — numbers and dates as YAML scalars write them.

Underscores between digits do not count.  A whole number may have another base than ten, and parts
behind colons count sixty to one.
-/
import ImportAudit.Data.Value
import ImportAudit.Yaml.Resolve

namespace ImportAudit.Yaml.Plain

open Number (Binary64)

/-- A fault of a value. -/
def refuse {α : Type} (complaint : String) : Except Fault α := .error ⟨.conversion, complaint, 0, 0⟩

/-- A fault of a value that has no digit left. -/
def refuseEmpty {α : Type} : Except Fault α :=
  .error ⟨.emptiness, "string index out of range", 0, 0⟩

/-- The value of a digit in bases up to sixteen. -/
def digitValue (c : Char) : Nat :=
  if c.isDigit then c.toNat - 48 else c.toLower.toNat - 87

/-- The number that digits stand for in a base. -/
def natOf (base : Nat) (ds : List Char) : Nat := ds.foldl (fun n d => n * base + digitValue d) 0

/-- The parts between colons. -/
def parts : List Char → List (List Char)
  | [] => [[]]
  | c :: cs =>
    match parts cs with
    | [] => [[c]]
    | p :: ps => if c = ':' then [] :: p :: ps else (c :: p) :: ps

/-- A text without its underscores. -/
def withoutUnderscores (text : String) : List Char := text.toList.filter fun c => c ≠ '_'

/-- The text is negative. -/
def isNegative (cs : List Char) : Bool := cs.head? == some '-'

/-- How many digits a whole number may have. -/
def maxDigits : Nat := 4300

/-- The whole number of digits in a base, of which there must be one. -/
def wholeOf (base : Nat) (p : Char → Bool) (ds : List Char) : Except Fault Nat :=
  if ds = [] ∨ !ds.all p then
    refuse ("invalid literal for int() with base " ++ toString base ++ ": " ++
      Text.quoted (String.ofList ds))
  else if base = 10 ∧ maxDigits < ds.length then
    refuse ("Exceeds the limit (4300 digits) for integer string conversion: value has " ++
      toString ds.length ++ " digits; use sys.set_int_max_str_digits() to increase the limit")
  else .ok (natOf base ds)

/-- The whole number of a text. -/
def intOf (text : String) : Except Fault Int := do
  let cs := withoutUnderscores text
  let body := unsigned cs
  let n ← match body with
    | [] => refuseEmpty
    | ['0'] => pure 0
    | '0' :: 'b' :: ds => wholeOf 2 isBinary ds
    | '0' :: 'x' :: ds => wholeOf 16 isHex ds
    | '0' :: _ => wholeOf 8 isOctal body
    | _ =>
      if body.contains ':' then
        (parts body).foldlM (fun n ds => do return n * 60 + (← wholeOf 10 Char.isDigit ds)) 0
      else wholeOf 10 Char.isDigit body
  pure (if isNegative cs then -(n : Int) else n)

/-- The digits and the exponent of ten of a text with a point and an exponent, each of which it may
lack, if it is a number. -/
def decimalOf? (cs : List Char) : Option (Nat × Int) :=
  let whole := cs.takeWhile Char.isDigit
  let rest := cs.dropWhile Char.isDigit
  let (fraction, rest) := match rest with
    | '.' :: more => (more.takeWhile Char.isDigit, more.dropWhile Char.isDigit)
    | rest => ([], rest)
  let exponent := match rest with
    | [] => some (0 : Int)
    | e :: more =>
      let ds := unsigned more
      if e.toLower = 'e' ∧ ds ≠ [] ∧ ds.all Char.isDigit then
        some (if isNegative more then -(natOf 10 ds : Int) else natOf 10 ds)
      else none
  if whole ++ fraction = [] then none
  else exponent.map fun e => (natOf 10 (whole ++ fraction), e - fraction.length)

/-- The number without a sign that a text stands for. -/
def partOf (cs : List Char) : Except Fault Binary64 :=
  match decimalOf? cs with
  | none => refuse ("could not convert string to float: " ++ Text.quoted (String.ofList cs))
  | some (digits, e) => .ok (Binary64.ofDecimal false digits e)

/-- The sum of parts, the last of which counts `unit` and each other sixty times the one behind it;
it is rounded at every step from the last part on. -/
def sumOfParts (unit : Nat) (total : Binary64) : List Binary64 → Binary64
  | [] => total
  | p :: ps => sumOfParts (unit * 60) (total.plus (p.times unit)) ps

/-- The number with a point of a text. -/
def floatOf (text : String) : Except Fault Binary64 := do
  let cs := (withoutUnderscores text).map Char.toLower
  let body := unsigned cs
  let n ←
    if cs = [] then refuseEmpty
    else if body = ".inf".toList then pure (.infinite false)
    else if body = ".nan".toList then pure .nan
    else if body.contains ':' then do
      pure (sumOfParts 1 .zero (← (parts body).mapM partOf).reverse)
    else partOf body
  pure (if isNegative cs then n.negated else n)

/-! ## Dates -/

/-- A date as a value, if there is such a date. -/
def dateValue (m : Moment) : Except Fault Value :=
  match m.flaw? with
  | some flaw => refuse flaw
  | none => .ok m.toValue

end ImportAudit.Yaml.Plain
