/-
# ImportAudit.Toml.Number — numbers, dates and times.
-/
import ImportAudit.Data.Moment
import ImportAudit.Toml.Text

namespace ImportAudit.Toml

open Number (Binary64)

/-- The number that decimal digits stand for. -/
def natOf (ds : List Char) : Nat := ds.foldl (fun n d => n * 10 + (d.toNat - 48)) 0

/-- The number of a field of decimal digits, of which there must be one. -/
def field? (cs : List Char) : Option Nat :=
  if cs ≠ [] ∧ cs.all Char.isDigit then some (natOf cs) else none

/-- The characters from an offset up to another one. -/
def slice (cs : List Char) (start stop : Nat) : List Char := (cs.take stop).drop start

/-! ## Whole numbers -/

/-- A sign and the rest. -/
def signed (cs : List Char) : Bool × List Char :=
  match cs with
  | '-' :: rest => (true, rest)
  | '+' :: rest => (false, rest)
  | cs => (false, cs)

/-- The value of a digit in bases up to sixteen. -/
def digitValue? (base : Nat) (c : Char) : Option Nat :=
  let n := if c.isDigit then c.toNat - 48
    else if c.isAlpha then c.toLower.toNat - 87
    else base
  if n < base then some n else none

/-- The number of digits in a base, of which there must be one. -/
def wholeOf? (base : Nat) (ds : List Char) : Option Nat :=
  if ds = [] then none
  else ds.foldl (fun n? d => do return (← n?) * base + (← digitValue? base d)) (some 0)

/-- How many decimal digits a whole number may have. -/
def maxDigits : Nat := 4300

/-- The whole number of a text: in a base that its beginning tells, or in base ten without zeros at
the beginning. -/
def wholeOf (text : List Char) : Except Fault Int := do
  let (negative, cs) := signed (Text.trim text)
  let n? := match cs with
    | '0' :: mark :: ds =>
      match [('x', 16), ('o', 8), ('b', 2)].lookup mark.toLower with
      | some base => wholeOf? base ds
      | none => if (mark :: ds).all (· = '0') then some 0 else none
    | cs => wholeOf? 10 cs
  match n? with
  | none => refuse (.integer (String.ofList text))
  | some n =>
    if maxDigits < cs.length ∧ cs.all Char.isDigit then refuse (.long cs.length)
    else pure (if negative then -(n : Int) else n)

/-! ## Numbers with a point -/

/-- Underscores stand between digits only. -/
def underscoresBetween (cs : List Char) : Bool :=
  (Text.splitOn '_' cs).length = 1 ||
    ((Text.splitOn '_' cs).dropLast.all fun p => (p.getLast?.any Char.isDigit)) &&
      ((Text.splitOn '_' cs).drop 1).all fun p => (p.head?.any Char.isDigit)

/-- The number of a text with a point and an exponent, each of which it may lack. -/
def decimalOf? (negative : Bool) (cs : List Char) : Option Binary64 :=
  let whole := cs.takeWhile Char.isDigit
  let rest := cs.dropWhile Char.isDigit
  let (fraction, rest) := match rest with
    | '.' :: more => (more.takeWhile Char.isDigit, more.dropWhile Char.isDigit)
    | rest => ([], rest)
  let exponent := match rest with
    | [] => some (0 : Int)
    | e :: more =>
      let (down, ds) := signed more
      if e.toLower = 'e' then (field? ds).map fun n => if down then -(n : Int) else n else none
  if whole ++ fraction = [] then none
  else exponent.map fun e =>
    Binary64.ofDecimal negative (natOf (whole ++ fraction)) (e - fraction.length)

/-- The number of a text, which may also be infinite or none. -/
def floatOf? (text : List Char) : Option Binary64 :=
  let (negative, cs) := signed (Text.trim text)
  let name := String.ofList (cs.map Char.toLower)
  if name = "inf" ∨ name = "infinity" then some (.infinite negative)
  else if name = "nan" then some .nan
  else if underscoresBetween cs then decimalOf? negative (cs.filter (· ≠ '_'))
  else none

/-- Zero less a number. -/
def negated : Binary64 → Binary64
  | .nan => .nan
  | .infinite negative => .infinite !negative
  | .finite negative m e => .finite (!negative && m != 0) m e

/-! ## Dates and times -/

/-- The offset from the common time that a text tells, in minutes, if it tells one. -/
def offsetOf? (cs : List Char) : Option Int :=
  if cs = ['Z'] then some 0
  else do
    let hours ← field? (slice cs 1 3)
    let minutes ← field? (slice cs 4 6)
    let total : Int := hours * 60 + minutes
    pure (if cs.head? = some '-' then -total else total)

/-- What stands behind the seconds: the microseconds, and the offset if there is one. -/
def afterSeconds (cs : List Char) : Nat × Option Int :=
  match cs with
  | '.' :: more =>
    let (digits, zone) :=
      if more.getLast? = some 'Z' ∨ more.getLast? = some 'z' then (more.dropLast, some ['Z'])
      else if more.contains '+' then (more.takeWhile (· ≠ '+'), some (more.dropWhile (· ≠ '+')))
      else if more.contains '-' then (more.takeWhile (· ≠ '-'), some (more.dropWhile (· ≠ '-')))
      else (more, none)
    match zone.map offsetOf? with
    | some none => (0, none)
    | zone =>
      match field? digits with
      | none => (0, none)
      | some n =>
        (if digits.length ≤ 6 then n * Nat.pow 10 (6 - digits.length)
          else n / Nat.pow 10 (digits.length - 6), zone.join)
  | [] => (0, none)
  | cs => (0, offsetOf? cs)

/-- The date that a text tells, with a time if it is longer than a date. -/
def momentOf? (cs : List Char) : Option Moment := do
  if !(cs.drop 1).contains '-' then none
  let year ← field? (slice cs 0 4)
  let month ← field? (slice cs 5 7)
  let day ← field? (slice cs 8 10)
  let m ←
    if cs.length = 10 then some { year, month, day : Moment }
    else do
      let hour ← field? (slice cs 11 13)
      let minute ← field? (slice cs 14 16)
      let second ← field? (slice cs 17 19)
      let (micro, offset) := afterSeconds (cs.drop 19)
      pure { year, month, day, time := some { hour, minute, second, micro }, offset }
  if m.flaw?.isSome then none else some m

/-- The time that a text begins with. -/
def timeOf? (cs : List Char) : Option TimeOfDay := do
  let hour ← if (slice cs 0 2).length = 2 then field? (slice cs 0 2) else none
  let minute ← if (slice cs 3 5).length = 2 then field? (slice cs 3 5) else none
  let second ← if (slice cs 6 8).length = 2 then field? (slice cs 6 8) else none
  if cs[2]? ≠ some ':' ∨ cs[5]? ≠ some ':' then none
  let digits := match cs.drop 8 with
    | '.' :: more => (more.takeWhile Char.isDigit).take 6
    | _ => []
  pure { hour, minute, second, micro := if 3 ≤ digits.length then natOf digits else 0 }

end ImportAudit.Toml
