/-
# ImportAudit.Number.Decimal — how numbers are written.

A number is written with the fewest digits that read back.  Where the point falls among or near the
digits it is written out, and a whole number then keeps `.0`; elsewhere there is one digit before
the point and an exponent of at least two digits.
-/
import ImportAudit.Number.Binary64

namespace ImportAudit.Number

/-- The digits without the zeros at the end, which count towards the exponent. -/
def stripZeros : List Char → List Char
  | ds => (ds.reverse.dropWhile (· = '0')).reverse

/-- The digits of an exponent, at least two. -/
def exponentDigits (n : Nat) : String :=
  if n < 10 then "0" ++ toString n else toString n

/-- Digits with the point behind the first `point` of them: positional for the points from -3 to
16, with an exponent elsewhere. -/
def placePoint (ds : List Char) (point : Int) : String :=
  if -4 < point ∧ point ≤ 16 then
    if point ≤ 0 then "0." ++ String.ofList (List.replicate (-point).toNat '0' ++ ds)
    else
      let n := point.toNat
      if ds.length ≤ n then String.ofList (ds ++ List.replicate (n - ds.length) '0') ++ ".0"
      else String.ofList (ds.take n) ++ "." ++ String.ofList (ds.drop n)
  else
    let e := point - 1
    let mantissa := match ds with
      | [] => "0"
      | [d] => String.ofList [d]
      | d :: rest => String.ofList [d] ++ "." ++ String.ofList rest
    mantissa ++ "e" ++ (if e < 0 then "-" else "+") ++ exponentDigits e.natAbs

namespace Binary64

/-- The sign of a negative number. -/
def sign (negative : Bool) : String := if negative then "-" else ""

/-- The text of a number, with the given texts for infinity and for no number. -/
def writeWith (infinity none : String) : Binary64 → String
  | .nan => none
  | .infinite negative => sign negative ++ infinity
  | .finite negative 0 _ => sign negative ++ "0.0"
  | .finite negative m e =>
    let d := shortest m e
    let ds := stripZeros (Nat.toDigits 10 d.1)
    sign negative ++ placePoint ds (d.2 + (Nat.toDigits 10 d.1).length)

/-- The text of a number in messages. -/
def toText : Binary64 → String := writeWith "inf" "nan"

/-- The text of a number in JSON. -/
def toJson : Binary64 → String := writeWith "Infinity" "NaN"

end Binary64

end ImportAudit.Number
