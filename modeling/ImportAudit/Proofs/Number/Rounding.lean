/-
# ImportAudit.Proofs.Number.Rounding — which quotients round to a number.

A number has a mantissa of 53 binary digits, or of fewer at the smallest exponent (`IsCanonical`).
The quotients that round to it lie between the middle to the number below and the middle to the
number above; the middles themselves belong to even mantissas (`RoundsTo`).  Quotients are compared
as rational numbers, powers with integer exponents among them (`powRatio_eq`).  The exponent at
which a quotient has 53 digits is found from the lengths of its two sides (`scaleOf_eq`), so that
what rounds to a number is read as this number (`ofRatio_eq`), also where it is given as a decimal
(`ofDecimal_eq`).
-/
import ImportAudit.Number.Binary64
import Mathlib.Algebra.Order.Field.Power
import Mathlib.Data.Nat.Log
import Mathlib.Tactic.FieldSimp
import Mathlib.Tactic.Linarith
import Mathlib.Tactic.NormNum
import Mathlib.Tactic.Positivity
import Mathlib.Tactic.Ring

namespace ImportAudit.Number

/-! ## Quotients -/

theorem powRatio_pos {base : Nat} (h : 0 < base) (exponent : Int) :
    0 < (powRatio base exponent).1 ∧ 0 < (powRatio base exponent).2 := by
  unfold powRatio
  split
  · exact ⟨Nat.pow_pos h, Nat.one_pos⟩
  · exact ⟨Nat.one_pos, Nat.pow_pos h⟩

/-- A power as a quotient has the value of the power. -/
theorem powRatio_eq (base : Nat) (exponent : Int) :
    ((powRatio base exponent).1 : ℚ) / (powRatio base exponent).2 = (base : ℚ) ^ exponent := by
  unfold powRatio
  split
  · next h =>
      obtain ⟨n, rfl⟩ := Int.eq_ofNat_of_zero_le h
      simp
  · next h =>
      obtain ⟨n, hn⟩ := Int.eq_ofNat_of_zero_le (a := -exponent) (by omega)
      obtain rfl : exponent = -(n : Int) := by omega
      simp

/-- A quotient in units of a power. -/
theorem div_powRatio {base : Nat} (h : 0 < base) (num den : Nat) (exponent : Int) :
    ((num * (powRatio base exponent).2 : Nat) : ℚ) / (den * (powRatio base exponent).1 : Nat) =
      (num : ℚ) / den / (base : ℚ) ^ exponent := by
  obtain ⟨hone, htwo⟩ := powRatio_pos h exponent
  rw [← powRatio_eq]
  push_cast
  field_simp

/-- A quotient times a power. -/
theorem mul_powRatio (base num : Nat) (exponent : Int) :
    ((num * (powRatio base exponent).1 : Nat) : ℚ) / (powRatio base exponent).2 =
      num * (base : ℚ) ^ exponent := by
  rw [← powRatio_eq]
  push_cast
  rw [mul_div_assoc]

theorem div_lt_iff {num den : Nat} (hden : 0 < den) (n : Nat) :
    num / den < n ↔ (num : ℚ) / den < n := by
  rw [Nat.div_lt_iff_lt_mul hden, div_lt_iff₀ (by exact_mod_cast hden)]
  exact_mod_cast Iff.rfl

/-- Rounding to the nearest integer: a half goes to the even one. -/
theorem roundDiv_eq {num den m : Nat} (hden : 0 < den) (hlow : (m : ℚ) - 1 / 2 ≤ (num : ℚ) / den)
    (hhigh : (num : ℚ) / den ≤ m + 1 / 2)
    (hodd : m % 2 = 1 → (m : ℚ) - 1 / 2 < (num : ℚ) / den ∧ (num : ℚ) / den < m + 1 / 2) :
    roundDiv num den = m := by
  have hpos : (0 : ℚ) < den := by exact_mod_cast hden
  -- the same without quotients
  have hlow' : 2 * (den * m) ≤ 2 * num + den := by
    rw [le_div_iff₀ hpos] at hlow
    have : (2 * (den * m) : ℚ) ≤ 2 * num + den := by linarith
    exact_mod_cast this
  have hhigh' : 2 * num ≤ 2 * (den * m) + den := by
    rw [div_le_iff₀ hpos] at hhigh
    have : (2 * num : ℚ) ≤ 2 * (den * m) + den := by linarith
    exact_mod_cast this
  have hodd' : m % 2 = 1 → 2 * (den * m) < 2 * num + den ∧ 2 * num < 2 * (den * m) + den := by
    intro h
    obtain ⟨hl, hh⟩ := hodd h
    rw [lt_div_iff₀ hpos] at hl
    rw [div_lt_iff₀ hpos] at hh
    have hl' : (2 * (den * m) : ℚ) < 2 * num + den := by linarith
    have hh' : (2 * num : ℚ) < 2 * (den * m) + den := by linarith
    exact ⟨by exact_mod_cast hl', by exact_mod_cast hh'⟩
  have hdivides := Nat.div_add_mod num den
  have hrest := Nat.mod_lt num hden
  unfold roundDiv
  dsimp only
  generalize num / den = q at hdivides ⊢
  generalize num % den = r at hdivides hrest ⊢
  -- the quotient is the integer or the one below
  have hq : q ≤ m := by
    by_contra hlt
    have := Nat.mul_le_mul_left den (show m + 1 ≤ q by omega)
    rw [Nat.mul_succ] at this
    omega
  have hm : m ≤ q + 1 := by
    by_contra hlt
    have := Nat.mul_le_mul_left den (show q + 1 + 1 ≤ m by omega)
    rw [Nat.mul_succ, Nat.mul_succ] at this
    omega
  obtain rfl | rfl : m = q ∨ m = q + 1 := by omega
  · split
    · rfl
    · split
      · omega
      · omega
  · rw [Nat.mul_succ] at hlow' hodd'
    split
    · omega
    · split
      · rfl
      · omega

/-! ## Numbers and what rounds to them -/

/-- The mantissa and the exponent are those of a number. -/
structure IsCanonical (mantissa : Nat) (exponent : Int) : Prop where
  digits : mantissa < 2 ^ 53
  least : minExponent ≤ exponent
  most : exponent ≤ maxExponent
  filled : 2 ^ 52 ≤ mantissa ∨ exponent = minExponent

/-- How far below a number the middle to the number below lies, in units of the last digit: below a
power of two the numbers lie twice as close, unless the exponent is the smallest. -/
def gapBelow (mantissa : Nat) (exponent : Int) : ℚ :=
  if mantissa = 2 ^ 52 ∧ minExponent < exponent then 1 / 4 else 1 / 2

/-- A rational number lies between the middles around a number, or at one of them if the mantissa is
even. -/
structure RoundsTo (mantissa : Nat) (exponent : Int) (r : ℚ) : Prop where
  low : (mantissa - gapBelow mantissa exponent) * 2 ^ exponent ≤ r
  high : r ≤ (mantissa + 1 / 2) * 2 ^ exponent
  odd : mantissa % 2 = 1 →
    (mantissa - gapBelow mantissa exponent) * 2 ^ exponent < r ∧
      r < (mantissa + 1 / 2) * 2 ^ exponent

theorem gapBelow_le (mantissa : Nat) (exponent : Int) : gapBelow mantissa exponent ≤ 1 / 2 := by
  unfold gapBelow
  split <;> norm_num

theorem gapBelow_pos (mantissa : Nat) (exponent : Int) : 0 < gapBelow mantissa exponent := by
  unfold gapBelow
  split <;> norm_num

section

variable {mantissa num den : Nat} {exponent : Int} {r : ℚ}

theorem two_zpow_pos (e : Int) : (0 : ℚ) < 2 ^ e := by positivity

/-- What rounds to a number that is not zero is not too small. -/
theorem RoundsTo.half_le (h : RoundsTo mantissa exponent r) (hm : 0 < mantissa) :
    2 ^ (exponent - 1) ≤ r := by
  refine le_trans ?_ h.low
  have hone : (1 : ℚ) ≤ mantissa := by exact_mod_cast hm
  have hgap := gapBelow_le mantissa exponent
  have hpow := two_zpow_pos exponent
  rw [zpow_sub_one₀ (by norm_num)]
  nlinarith

theorem RoundsTo.pos (h : RoundsTo mantissa exponent r) (hm : 0 < mantissa) : 0 < r :=
  lt_of_lt_of_le (two_zpow_pos _) (h.half_le hm)

theorem RoundsTo.lt (h : RoundsTo mantissa exponent r) (hm : mantissa < 2 ^ 53) :
    r < 2 ^ (exponent + 53) := by
  refine lt_of_le_of_lt h.high ?_
  have hmax : (mantissa : ℚ) + 1 ≤ 2 ^ 53 := by exact_mod_cast hm
  have hpow := two_zpow_pos exponent
  rw [zpow_add₀ (by norm_num), mul_comm]
  have hsmall : (mantissa : ℚ) + 1 / 2 < 2 ^ (53 : ℤ) := by
    rw [show (53 : ℤ) = ((53 : ℕ) : ℤ) from rfl, zpow_natCast]
    linarith
  exact mul_lt_mul_of_pos_left hsmall hpow

/-! ## The exponent of a quotient -/

/-- The lengths of numerator and denominator tell the size of a quotient up to a factor of two. -/
theorem log2_bounds (hnum : 0 < num) (hden : 0 < den) :
    (2 : ℚ) ^ ((num.log2 : Int) - den.log2 - 1) < (num : ℚ) / den ∧
      (num : ℚ) / den < 2 ^ ((num.log2 : Int) - den.log2 + 1) := by
  have hpos : (0 : ℚ) < den := by exact_mod_cast hden
  have hnumlow : (2 : ℚ) ^ (num.log2 : Int) ≤ num := by
    rw [zpow_natCast]
    exact_mod_cast Nat.log2_self_le hnum.ne'
  have hnumhigh : (num : ℚ) < 2 ^ ((num.log2 : Int) + 1) := by
    rw [show (num.log2 : Int) + 1 = ((num.log2 + 1 : Nat) : Int) from rfl, zpow_natCast]
    exact_mod_cast Nat.lt_log2_self
  have hdenlow : (2 : ℚ) ^ (den.log2 : Int) ≤ den := by
    rw [zpow_natCast]
    exact_mod_cast Nat.log2_self_le hden.ne'
  have hdenhigh : (den : ℚ) < 2 ^ ((den.log2 : Int) + 1) := by
    rw [show (den.log2 : Int) + 1 = ((den.log2 + 1 : Nat) : Int) from rfl, zpow_natCast]
    exact_mod_cast Nat.lt_log2_self
  constructor
  · rw [lt_div_iff₀ hpos]
    calc (2 : ℚ) ^ ((num.log2 : Int) - den.log2 - 1) * den
        < 2 ^ ((num.log2 : Int) - den.log2 - 1) * 2 ^ ((den.log2 : Int) + 1) :=
          mul_lt_mul_of_pos_left hdenhigh (two_zpow_pos _)
      _ = 2 ^ (num.log2 : Int) := by
          rw [← zpow_add₀ (by norm_num)]
          congr 1
          ring
      _ ≤ num := hnumlow
  · rw [div_lt_iff₀ hpos]
    calc (num : ℚ) < 2 ^ ((num.log2 : Int) + 1) := hnumhigh
      _ = 2 ^ ((num.log2 : Int) - den.log2 + 1) * 2 ^ (den.log2 : Int) := by
          rw [← zpow_add₀ (by norm_num)]
          congr 1
          ring
      _ ≤ 2 ^ ((num.log2 : Int) - den.log2 + 1) * den :=
          mul_le_mul_of_nonneg_left hdenlow (two_zpow_pos _).le

/-- The exponent at which a quotient has 53 digits, or the smallest one where it has fewer. -/
theorem scaleOf_eq (hnum : 0 < num) (hden : 0 < den) (hleast : minExponent ≤ exponent)
    (hhigh : (num : ℚ) / den < 2 ^ (exponent + 53))
    (hlow : 2 ^ (exponent + 52) ≤ (num : ℚ) / den ∨ exponent = minExponent) :
    Binary64.scaleOf num den = exponent := by
  have htwo : (1 : ℚ) < 2 := by norm_num
  have hlt : ∀ {a b : Int}, (2 : ℚ) ^ a < 2 ^ b → a < b := (zpow_lt_zpow_iff_right₀ htwo).mp
  obtain ⟨hover, hunder⟩ := log2_bounds hnum hden
  unfold Binary64.scaleOf
  dsimp only
  generalize hfirst : (num.log2 : Int) - den.log2 - 52 = first
  obtain ⟨hone, hpow⟩ := powRatio_pos Nat.two_pos first
  have hwhole : num * (powRatio 2 first).2 / (den * (powRatio 2 first).1) < Nat.pow 2 52 ↔
      (num : ℚ) / den < 2 ^ (first + 52) := by
    rw [div_lt_iff (Nat.mul_pos hden hone), div_powRatio (by omega),
      div_lt_iff₀ (by exact_mod_cast two_zpow_pos first), add_comm, zpow_add₀ (by norm_num)]
    norm_num
  -- the exponent before the smallest one is taken into account
  obtain ⟨e, he, hfrom, hto⟩ : ∃ e, (if num * (powRatio 2 first).2 / (den * (powRatio 2 first).1) <
      Nat.pow 2 52 then first - 1 else first) = e ∧ (2 : ℚ) ^ (e + 52) ≤ (num : ℚ) / den ∧
      (num : ℚ) / den < 2 ^ (e + 53) := by
    have hsize : (num.log2 : Int) - den.log2 = first + 52 := by omega
    rw [hsize] at hover hunder
    split
    · next hless =>
        refine ⟨first - 1, rfl, ?_, ?_⟩
        · rw [show first - 1 + 52 = first + 52 - 1 by ring]
          exact hover.le
        · rw [show first - 1 + 53 = first + 52 by ring]
          exact hwhole.mp hless
    · next hmore =>
        refine ⟨first, rfl, ?_, ?_⟩
        · exact not_lt.mp fun h => hmore (hwhole.mpr h)
        · rw [show first + 53 = first + 52 + 1 by ring]
          exact hunder
  rw [he]
  have hbelow : e + 52 < exponent + 53 := hlt (lt_of_le_of_lt hfrom hhigh)
  rcases hlow with hlow | hlow
  · have habove : exponent + 52 < e + 53 := hlt (lt_of_le_of_lt hlow hto)
    omega
  · omega

/-! ## Reading -/

/-- In units of the last digit, what rounds to a number lies around its mantissa. -/
theorem RoundsTo.div (h : RoundsTo mantissa exponent r) :
    (mantissa : ℚ) - gapBelow mantissa exponent ≤ r / 2 ^ exponent ∧
      r / 2 ^ exponent ≤ mantissa + 1 / 2 ∧
      (mantissa % 2 = 1 → (mantissa : ℚ) - gapBelow mantissa exponent < r / 2 ^ exponent ∧
        r / 2 ^ exponent < mantissa + 1 / 2) := by
  have hpow := two_zpow_pos exponent
  refine ⟨(le_div_iff₀ hpow).mpr h.low, (div_le_iff₀ hpow).mpr h.high, fun hodd => ?_⟩
  obtain ⟨hlow, hhigh⟩ := h.odd hodd
  exact ⟨(lt_div_iff₀ hpow).mpr hlow, (div_lt_iff₀ hpow).mpr hhigh⟩

theorem pack_eq (negative : Bool) (hm : mantissa < 2 ^ 53) (he : exponent ≤ maxExponent) :
    Binary64.pack negative mantissa exponent = .finite negative mantissa exponent := by
  have hm : mantissa ≠ Nat.pow 2 53 := Nat.ne_of_lt hm
  unfold Binary64.pack
  rw [if_neg hm, if_neg (not_lt.mpr he)]

/-- A mantissa that was rounded up to one digit more. -/
theorem pack_carry (negative : Bool) (he : exponent + 1 ≤ maxExponent) :
    Binary64.pack negative (2 ^ 53) exponent = .finite negative (2 ^ 52) (exponent + 1) := by
  have hm : 2 ^ 53 = Nat.pow 2 53 := rfl
  unfold Binary64.pack
  rw [if_pos hm, if_neg (not_lt.mpr he)]
  rfl

/-- In units of a power of two, a quotient is rounded to the nearest integer. -/
theorem roundDiv_powRatio (hden : 0 < den) {e : Int} {n : Nat}
    (hlow : (n : ℚ) - 1 / 2 ≤ (num : ℚ) / den / 2 ^ e)
    (hhigh : (num : ℚ) / den / 2 ^ e ≤ n + 1 / 2)
    (hodd : n % 2 = 1 →
      (n : ℚ) - 1 / 2 < (num : ℚ) / den / 2 ^ e ∧ (num : ℚ) / den / 2 ^ e < n + 1 / 2) :
    roundDiv (num * (powRatio 2 e).2) (den * (powRatio 2 e).1) = n := by
  have hpos := Nat.mul_pos hden (powRatio_pos Nat.two_pos e).1
  have hunits := div_powRatio Nat.two_pos num den e
  rw [Nat.cast_two] at hunits
  rw [← hunits] at hlow hhigh hodd
  exact roundDiv_eq hpos hlow hhigh hodd

theorem RoundsTo.num_pos (h : RoundsTo mantissa exponent ((num : ℚ) / den)) (hm : 0 < mantissa) :
    0 < num := by
  by_contra hzero
  have hpos := h.pos hm
  rw [Nat.eq_zero_of_not_pos hzero, Nat.cast_zero, zero_div] at hpos
  exact absurd hpos (lt_irrefl _)

/-- What rounds to a power of two from below has one digit more than the power, and is rounded up to
it. -/
theorem ofRatio_below (negative : Bool) (hcanonical : IsCanonical mantissa exponent)
    (hm : 0 < mantissa) (hden : 0 < den) (h : RoundsTo mantissa exponent ((num : ℚ) / den))
    (hless : (num : ℚ) / den < 2 ^ (exponent + 52)) (hexponent : minExponent < exponent) :
    Binary64.ofRatio negative num den = .finite negative mantissa exponent := by
  obtain ⟨hlow, -, -⟩ := h.div
  have hpow := two_zpow_pos exponent
  have hgap := gapBelow_le mantissa exponent
  have hless' : (num : ℚ) / den / 2 ^ exponent < 2 ^ 52 := by
    rw [div_lt_iff₀ hpow]
    rwa [add_comm, zpow_add₀ (by norm_num), show (52 : ℤ) = ((52 : ℕ) : ℤ) from rfl,
      zpow_natCast] at hless
  have hmantissa : mantissa = 2 ^ 52 := by
    have hfilled := hcanonical.filled.resolve_right hexponent.ne'
    have hmost : (mantissa : ℚ) < 2 ^ 52 + 1 := by linarith
    have hmost' : mantissa < 2 ^ 52 + 1 := by exact_mod_cast hmost
    omega
  have hquarter : gapBelow mantissa exponent = 1 / 4 := if_pos ⟨hmantissa, hexponent⟩
  have hdouble : (num : ℚ) / den / 2 ^ (exponent - 1) = 2 * ((num : ℚ) / den / 2 ^ exponent) := by
    rw [zpow_sub_one₀ (by norm_num)]
    field_simp
  have hscale : Binary64.scaleOf num den = exponent - 1 := by
    refine scaleOf_eq (h.num_pos hm) hden (by omega) ?_ (.inl ?_)
    · rwa [show exponent - 1 + 53 = exponent + 52 by ring]
    · refine le_trans ?_ h.low
      rw [hquarter, hmantissa, show exponent - 1 + 52 = exponent + 51 by ring, add_comm exponent,
        zpow_add₀ (by norm_num)]
      exact mul_le_mul_of_nonneg_right (by norm_num) hpow.le
  have hrounded : roundDiv (num * (powRatio 2 (exponent - 1)).2)
      (den * (powRatio 2 (exponent - 1)).1) = 2 ^ 53 := by
    rw [hquarter, hmantissa] at hlow
    push_cast at hlow
    refine roundDiv_powRatio hden ?_ ?_ (by norm_num)
    · rw [hdouble]
      push_cast
      linarith
    · rw [hdouble]
      push_cast
      linarith
  unfold Binary64.ofRatio
  rw [if_neg (h.num_pos hm).ne']
  dsimp only
  rw [hscale, hrounded, hmantissa, pack_carry negative (by linarith [hcanonical.most]),
    sub_add_cancel]

/-- What rounds to a number is read as it. -/
theorem ofRatio_eq (negative : Bool) (hcanonical : IsCanonical mantissa exponent)
    (hm : 0 < mantissa) (hden : 0 < den) (h : RoundsTo mantissa exponent ((num : ℚ) / den)) :
    Binary64.ofRatio negative num den = .finite negative mantissa exponent := by
  by_cases hfrom : 2 ^ (exponent + 52) ≤ (num : ℚ) / den ∨ exponent = minExponent
  · obtain ⟨hlow, hhigh, hodd⟩ := h.div
    have hgap := gapBelow_le mantissa exponent
    have hscale := scaleOf_eq (h.num_pos hm) hden hcanonical.least (h.lt hcanonical.digits) hfrom
    have hrounded := roundDiv_powRatio hden (e := exponent) (n := mantissa) (by linarith) hhigh
      fun hone => ⟨by linarith [(hodd hone).1], (hodd hone).2⟩
    unfold Binary64.ofRatio
    rw [if_neg (h.num_pos hm).ne']
    dsimp only
    rw [hscale, hrounded]
    exact pack_eq negative hcanonical.digits hcanonical.most
  · rw [not_or, not_le] at hfrom
    exact ofRatio_below negative hcanonical hm hden h hfrom.1
      (lt_of_le_of_ne hcanonical.least (Ne.symm hfrom.2))

/-! ## Decimals -/

theorem digitCount_pos (n : Nat) : 0 < Binary64.digitCount n := Nat.length_toDigits_pos

theorem lt_pow_digitCount (n : Nat) : n < 10 ^ Binary64.digitCount n :=
  (Nat.length_toDigits_le_iff (by omega) (digitCount_pos n)).mp (Nat.le_refl _)

theorem pow_digitCount_le {n : Nat} (h : 0 < n) : 10 ^ (Binary64.digitCount n - 1) ≤ n := by
  by_contra hless
  rw [not_le] at hless
  by_cases hone : Binary64.digitCount n - 1 = 0
  · rw [hone, pow_zero] at hless
    omega
  · have hshort := (Nat.length_toDigits_le_iff (by omega) (by omega)).mpr hless
    have hpos := digitCount_pos n
    unfold Binary64.digitCount at hshort hpos hone
    omega

/-- The number of digits tells the size of a decimal up to a factor of ten. -/
theorem digitCount_bounds {digits : Nat} (h : 0 < digits) (k : Int) :
    (10 : ℚ) ^ (k + Binary64.digitCount digits - 1) ≤ digits * 10 ^ k ∧
      (digits : ℚ) * 10 ^ k < 10 ^ (k + Binary64.digitCount digits) := by
  have hpow : (0 : ℚ) < 10 ^ k := by positivity
  have hcount := digitCount_pos digits
  have hlow : (10 : ℚ) ^ ((Binary64.digitCount digits : Int) - 1) ≤ digits := by
    rw [show (Binary64.digitCount digits : Int) - 1 = ((Binary64.digitCount digits - 1 : Nat) : Int)
      by omega, zpow_natCast]
    exact_mod_cast pow_digitCount_le h
  have hhigh : (digits : ℚ) < 10 ^ (Binary64.digitCount digits : Int) := by
    rw [zpow_natCast]
    exact_mod_cast lt_pow_digitCount digits
  constructor
  · rw [add_sub_assoc, add_comm, zpow_add₀ (by norm_num)]
    exact mul_le_mul_of_nonneg_right hlow hpow.le
  · rw [add_comm, zpow_add₀ (by norm_num)]
    exact mul_lt_mul_of_pos_right hhigh hpow

/-- A decimal that rounds to a number is within the bounds beyond which nothing is calculated:
numbers lie between powers of two, and these between those powers of ten. -/
theorem RoundsTo.size_bounds {digits : Nat} {k : Int} (hcanonical : IsCanonical mantissa exponent)
    (hm : 0 < mantissa) (hdigits : 0 < digits) (h : RoundsTo mantissa exponent (digits * 10 ^ k)) :
    -400 < k + Binary64.digitCount digits ∧ k + Binary64.digitCount digits ≤ 400 := by
  obtain ⟨hfrom, hto⟩ := digitCount_bounds hdigits k
  have hten : ∀ {a b : Int}, (10 : ℚ) ^ a < 10 ^ b → a < b :=
    (zpow_lt_zpow_iff_right₀ (by norm_num)).mp
  have hpowers : (2 : ℚ) ^ (1200 : Int) ≤ 10 ^ (400 : Int) := by
    rw [show (1200 : Int) = 3 * 400 from rfl, zpow_mul]
    exact zpow_le_zpow_left₀ (by norm_num) (by norm_num) (by norm_num)
  have hinverses : (10 : ℚ) ^ (-400 : Int) ≤ 2 ^ (-1200 : Int) := by
    rw [zpow_neg, zpow_neg]
    exact inv_anti₀ (by positivity) hpowers
  have hleast := hcanonical.least
  have hmost := hcanonical.most
  unfold minExponent at hleast
  unfold maxExponent at hmost
  constructor
  · have hsmall : (2 : ℚ) ^ (-1200 : Int) ≤ 2 ^ (exponent - 1) :=
      zpow_le_zpow_right₀ (by norm_num) (by omega)
    exact hten (lt_of_le_of_lt (hinverses.trans (hsmall.trans (h.half_le hm))) hto)
  · have hlarge : (2 : ℚ) ^ (exponent + 53) ≤ 2 ^ (1200 : Int) :=
      zpow_le_zpow_right₀ (by norm_num) (by omega)
    have hlt := hten (lt_of_le_of_lt hfrom
      (lt_of_lt_of_le (h.lt hcanonical.digits) (hlarge.trans hpowers)))
    omega

/-- A decimal that rounds to a number is read as it. -/
theorem ofDecimal_eq (negative : Bool) {digits : Nat} {k : Int}
    (hcanonical : IsCanonical mantissa exponent) (hm : 0 < mantissa)
    (h : RoundsTo mantissa exponent (digits * 10 ^ k)) :
    Binary64.ofDecimal negative digits k = .finite negative mantissa exponent := by
  have hdigits : 0 < digits := by
    by_contra hzero
    have hpos := h.pos hm
    rw [Nat.eq_zero_of_not_pos hzero, Nat.cast_zero, zero_mul] at hpos
    exact absurd hpos (lt_irrefl _)
  obtain ⟨hlarge, hsmall⟩ := h.size_bounds hcanonical hm hdigits
  have hvalue := mul_powRatio 10 digits k
  rw [Nat.cast_ofNat] at hvalue
  rw [← hvalue] at h
  unfold Binary64.ofDecimal
  dsimp only
  rw [if_neg hdigits.ne', if_neg (not_lt.mpr hsmall), if_neg (not_lt.mpr hlarge.le)]
  exact ofRatio_eq negative hcanonical hm (powRatio_pos (by omega) k).2 h

end

end ImportAudit.Number
