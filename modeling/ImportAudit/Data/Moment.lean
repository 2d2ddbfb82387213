/-
# ImportAudit.Data.Moment — dates and times as values.
-/
import ImportAudit.Data.Value

namespace ImportAudit

/-- A time of day: hour, minute, second and microsecond. -/
structure TimeOfDay where
  hour : Nat
  minute : Nat
  second : Nat
  micro : Nat := 0
  deriving DecidableEq, Repr

/-- A date, a time if there is one, and the offset from the common time in minutes if there is
one. -/
structure Moment where
  year : Nat
  month : Nat
  day : Nat
  time : Option TimeOfDay := none
  offset : Option Int := none
  deriving DecidableEq, Repr

/-- A number with at least so many digits. -/
def padded (width n : Nat) : String :=
  let ds := Nat.toDigits 10 n
  String.ofList (List.replicate (width - ds.length) '0' ++ ds)

namespace TimeOfDay

/-- What is wrong with a time, if anything is. -/
def flaw? (t : TimeOfDay) : Option String :=
  if 23 < t.hour then some "hour must be in 0..23"
  else if 59 < t.minute then some "minute must be in 0..59"
  else if 59 < t.second then some "second must be in 0..59"
  else none

/-- The text of a time. -/
def text (t : TimeOfDay) : String :=
  padded 2 t.hour ++ ":" ++ padded 2 t.minute ++ ":" ++ padded 2 t.second ++
    (if t.micro = 0 then "" else "." ++ padded 6 t.micro)

/-- The numbers of a time, without zeros at the end. -/
def numbers (t : TimeOfDay) : List Nat :=
  [t.hour, t.minute] ++
    if t.micro ≠ 0 then [t.second, t.micro] else if t.second ≠ 0 then [t.second] else []

/-- A time as a value. -/
def toValue (t : TimeOfDay) : Value :=
  .foreign ⟨"datetime", "time", t.text,
    "datetime.time(" ++ ", ".intercalate (t.numbers.map toString) ++ ")"⟩

end TimeOfDay

namespace Moment

/-- A year has a day more. -/
def isLeap (year : Nat) : Bool := year % 4 == 0 && (year % 100 != 0 || year % 400 == 0)

/-- How many days a month has. -/
def daysIn (year month : Nat) : Nat :=
  if month = 2 then if isLeap year then 29 else 28
  else if [4, 6, 9, 11].contains month then 30
  else 31

/-- What is wrong with a date, if anything is. -/
def flaw? (m : Moment) : Option String :=
  if m.year = 0 then some "year 0 is out of range"
  else if m.month = 0 ∨ 12 < m.month then some "month must be in 1..12"
  else if m.day = 0 ∨ daysIn m.year m.month < m.day then some "day is out of range for month"
  else m.time.bind TimeOfDay.flaw?

/-- The text of an offset. -/
def offsetText (minutes : Int) : String :=
  (if minutes < 0 then "-" else "+") ++ padded 2 (minutes.natAbs / 60) ++ ":" ++
    padded 2 (minutes.natAbs % 60)

/-- The text of an offset inside of lists and mappings. -/
def offsetNested (minutes : Int) : String :=
  let seconds := minutes * 60
  let inner :=
    if 0 ≤ seconds then "seconds=" ++ toString seconds
    else "days=-1, seconds=" ++ toString (seconds + 86400)
  if minutes = 0 then "datetime.timezone.utc"
  else "datetime.timezone(datetime.timedelta(" ++ inner ++ "))"

/-- A date as a value. -/
def toValue (m : Moment) : Value :=
  let date := padded 4 m.year ++ "-" ++ padded 2 m.month ++ "-" ++ padded 2 m.day
  let numbers := [m.year, m.month, m.day]
  match m.time with
  | none =>
    .foreign ⟨"datetime", "date", date,
      "datetime.date(" ++ ", ".intercalate (numbers.map toString) ++ ")"⟩
  | some t =>
    let zone := match m.offset with
      | none => []
      | some o => ["tzinfo=" ++ offsetNested o]
    .foreign ⟨"datetime", "datetime",
      date ++ " " ++ t.text ++ (m.offset.map offsetText).getD "",
      "datetime.datetime(" ++ ", ".intercalate ((numbers ++ t.numbers).map toString ++ zone) ++
        ")"⟩

end Moment

end ImportAudit
