/-
# ImportAudit.Number.Binary64 — binary floating point with 53 digits.

A finite number is a sign, a mantissa and a power of two.  Reading a decimal rounds its exact value
to the nearest such number, a half going to the even mantissa; what lies beyond the largest one
becomes infinite.  All of this is arithmetic on natural numbers.
-/

namespace ImportAudit.Number

/-- A number with a mantissa of at most 53 binary digits, an infinity, or no number at all. -/
inductive Binary64
  /-- The number `mantissa * 2 ^ exponent` with a sign, which zero has too. -/
  | finite (negative : Bool) (mantissa : Nat) (exponent : Int)
  | infinite (negative : Bool)
  | nan
  deriving DecidableEq, Repr

/-- The quotient `num / den` rounded to the nearest integer, a half to the even one. -/
def roundDiv (num den : Nat) : Nat :=
  let q := num / den
  let r := num % den
  if 2 * r < den then q
  else if den < 2 * r then q + 1
  else q + q % 2

/-- A power with an integer exponent as a numerator and a denominator. -/
def powRatio (base : Nat) (exponent : Int) : Nat × Nat :=
  if 0 ≤ exponent then (Nat.pow base exponent.toNat, 1)
  else (1, Nat.pow base (-exponent).toNat)

/-- The smallest exponent of a number. -/
def minExponent : Int := -1074

/-- The largest exponent of a number. -/
def maxExponent : Int := 971

namespace Binary64

/-- The number with this mantissa and exponent, or infinity if the exponent is too large. -/
def pack (negative : Bool) (mantissa : Nat) (exponent : Int) : Binary64 :=
  if mantissa = Nat.pow 2 53 then
    if maxExponent < exponent + 1 then .infinite negative
    else .finite negative (Nat.pow 2 52) (exponent + 1)
  else if maxExponent < exponent then .infinite negative
  else .finite negative mantissa exponent

/-- The exponent at which the positive quotient `num / den` has 53 binary digits before the
point, or the smallest exponent if that is larger. -/
def scaleOf (num den : Nat) : Int :=
  let e : Int := (num.log2 : Int) - den.log2 - 52
  let s := powRatio 2 e
  let e := if num * s.2 / (den * s.1) < Nat.pow 2 52 then e - 1 else e
  max e minExponent

/-- The number nearest to the quotient `num / den`. -/
def ofRatio (negative : Bool) (num den : Nat) : Binary64 :=
  if num = 0 then .finite negative 0 minExponent
  else
    let e := scaleOf num den
    let s := powRatio 2 e
    pack negative (roundDiv (num * s.2) (den * s.1)) e

/-- The number of decimal digits of a number; zero has one. -/
def digitCount (n : Nat) : Nat := (Nat.toDigits 10 n).length

/-- The number nearest to `digits * 10 ^ exponent`.  Far beyond the range nothing needs to be
calculated. -/
def ofDecimal (negative : Bool) (digits : Nat) (exponent : Int) : Binary64 :=
  let size := exponent + digitCount digits
  if digits = 0 then .finite negative 0 minExponent
  else if 400 < size then .infinite negative
  else if size < -400 then .finite negative 0 minExponent
  else
    let s := powRatio 10 exponent
    ofRatio negative (digits * s.1) s.2

/-! ## Calculating -/

/-- Zero. -/
def zero : Binary64 := .finite false 0 minExponent

/-- Zero less a number. -/
def negated : Binary64 → Binary64
  | .nan => .nan
  | .infinite negative => .infinite !negative
  | .finite negative m e => .finite (!negative) m e

/-- The number nearest to the sum of two, of which neither is below zero. -/
def plus : Binary64 → Binary64 → Binary64
  | .finite _ m d, .finite _ n e =>
    let least := min d e
    let sum := m * Nat.pow 2 (d - least).toNat + n * Nat.pow 2 (e - least).toNat
    let s := powRatio 2 least
    ofRatio false (sum * s.1) s.2
  | .nan, _ | _, .nan => .nan
  | _, _ => .infinite false

/-- The number nearest to the product of one that is not below zero and a positive factor. -/
def times (x : Binary64) (factor : Nat) : Binary64 :=
  match x with
  | .finite _ m e =>
    let s := powRatio 2 e
    ofRatio false (m * factor * s.1) s.2
  | x => x

/-- The number is zero, of either sign. -/
def isZero : Binary64 → Bool
  | .finite _ m _ => m == 0
  | _ => false

/-! ## The shortest decimal that reads back -/

/-- The power of ten of the first decimal digit of the positive quotient `num / den`. -/
def leadingPower (num den : Nat) : Int :=
  if den ≤ num then (digitCount (num / den) : Int) - 1
  else -(digitCount ((den - 1) / num) : Int)

/-- The decimal `c * 10 ^ k` lies in the interval of values that round to the number with this
mantissa and exponent.  Its ends belong to it if the mantissa is even; below a power of two the
numbers lie twice as close. -/
def roundsBack (mantissa : Nat) (exponent : Int) (c : Nat) (k : Int) : Bool :=
  let two := powRatio 2 (exponent - 2)
  let ten := powRatio 10 k
  let here := c * ten.1 * two.2
  let gap := if mantissa = Nat.pow 2 52 ∧ minExponent < exponent then 1 else 2
  let low := (4 * mantissa - gap) * two.1 * ten.2
  let high := (4 * mantissa + 2) * two.1 * ten.2
  if mantissa % 2 = 0 then low ≤ here && here ≤ high else low < here && here < high

/-- Of the two decimals of a grid around `num / den`, `f` and `f + 1` grid steps, the one that
rounds back; the nearer one if both do, the even one if both are as near. -/
def onGrid (mantissa : Nat) (exponent : Int) (num den : Nat) (k : Int) : Option Nat :=
  let s := powRatio 10 k
  let f := num * s.2 / (den * s.1)
  let below := roundsBack mantissa exponent f k
  let above := roundsBack mantissa exponent (f + 1) k
  if below && above then some (roundDiv (num * s.2) (den * s.1))
  else if below then some f
  else if above then some (f + 1)
  else none

/-- The first grid, from `n` digits on, on which a decimal rounds back. -/
def firstGrid (mantissa : Nat) (exponent : Int) (num den : Nat) (p : Int) :
    Nat → Nat → Nat × Int
  | 0, _ => (roundDiv num den, 0)
  | fuel + 1, n =>
    let k := p + 1 - n
    match onGrid mantissa exponent num den k with
    | some c => (c, k)
    | none => firstGrid mantissa exponent num den p fuel (n + 1)

/-- The decimal with the fewest digits that reads back as `mantissa * 2 ^ exponent`, which is not
zero: its digits and its power of ten. -/
def shortest (mantissa : Nat) (exponent : Int) : Nat × Int :=
  let s := powRatio 2 exponent
  let num := mantissa * s.1
  firstGrid mantissa exponent num s.2 (leadingPower num s.2) 17 1

end Binary64

end ImportAudit.Number
