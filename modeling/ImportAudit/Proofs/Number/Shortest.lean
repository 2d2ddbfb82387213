/-
# ImportAudit.Proofs.Number.Shortest — the decimal that a number is written as rounds to it.

Decimals are sought on grids, each ten times as fine as the one before, and those at both sides of
the number are tried (`onGrid`).  A decimal is taken only if it rounds to the number
(`roundsBack_iff`).  On the grid with seventeen digits a step is less than the space of a number, so
the nearer of both decimals rounds to it (`roundsTo_below_or_above`), and the search comes to an end
with such a decimal (`roundsTo_shortest`).
-/
import ImportAudit.Proofs.Number.Rounding
import Mathlib.Data.Nat.Cast.Order.Field

namespace ImportAudit.Number

open Binary64

variable {mantissa num den : Nat} {exponent k : Int}

/-! ## What is tried -/

theorem cross_le_iff {a b c d : Nat} (hb : 0 < b) (hd : 0 < d) :
    a * d ≤ c * b ↔ (a : ℚ) / b ≤ c / d := by
  rw [div_le_div_iff₀ (by exact_mod_cast hb) (by exact_mod_cast hd)]
  exact_mod_cast Iff.rfl

/-- Multiples of a power of two and of a power of ten are compared without quotients. -/
theorem scaled_le_iff (a c : Nat) (i k : Int) :
    a * (powRatio 2 i).1 * (powRatio 10 k).2 ≤ c * (powRatio 10 k).1 * (powRatio 2 i).2 ↔
      (a : ℚ) * 2 ^ i ≤ c * 10 ^ k := by
  rw [cross_le_iff (powRatio_pos (by omega) i).2 (powRatio_pos (by omega) k).2, mul_powRatio,
    mul_powRatio, Nat.cast_ofNat, Nat.cast_ofNat]

theorem le_scaled_iff (a c : Nat) (i k : Int) :
    c * (powRatio 10 k).1 * (powRatio 2 i).2 ≤ a * (powRatio 2 i).1 * (powRatio 10 k).2 ↔
      (c : ℚ) * 10 ^ k ≤ a * 2 ^ i := by
  rw [cross_le_iff (powRatio_pos (by omega) k).2 (powRatio_pos (by omega) i).2, mul_powRatio,
    mul_powRatio, Nat.cast_ofNat, Nat.cast_ofNat]

theorem scaled_lt_iff (a c : Nat) (i k : Int) :
    c * (powRatio 10 k).1 * (powRatio 2 i).2 < a * (powRatio 2 i).1 * (powRatio 10 k).2 ↔
      (c : ℚ) * 10 ^ k < a * 2 ^ i := by
  rw [← not_le, ← not_le, scaled_le_iff]

theorem lt_scaled_iff (a c : Nat) (i k : Int) :
    a * (powRatio 2 i).1 * (powRatio 10 k).2 < c * (powRatio 10 k).1 * (powRatio 2 i).2 ↔
      (a : ℚ) * 2 ^ i < c * 10 ^ k := by
  rw [← not_le, ← not_le, le_scaled_iff]

/-- The check of a decimal says whether it rounds to the number. -/
theorem roundsBack_iff (hm : 0 < mantissa) (c : Nat) (k : Int) :
    roundsBack mantissa exponent c k = true ↔ RoundsTo mantissa exponent (c * 10 ^ k) := by
  have hquarter : (2 : ℚ) ^ (exponent - 2) = 2 ^ exponent / 4 := by
    rw [zpow_sub₀ (by norm_num)]
    norm_num
  have hlow : ((4 * mantissa - (if mantissa = Nat.pow 2 52 ∧ minExponent < exponent then 1 else 2) :
      Nat) : ℚ) * 2 ^ (exponent - 2) = (mantissa - gapBelow mantissa exponent) * 2 ^ exponent := by
    have hgap : gapBelow mantissa exponent =
        if mantissa = Nat.pow 2 52 ∧ minExponent < exponent then 1 / 4 else 1 / 2 := rfl
    rw [hquarter, hgap]
    split
    · rw [Nat.cast_sub (by omega)]
      push_cast
      ring
    · rw [Nat.cast_sub (by omega)]
      push_cast
      ring
  have hhigh : ((4 * mantissa + 2 : Nat) : ℚ) * 2 ^ (exponent - 2) =
      (mantissa + 1 / 2) * 2 ^ exponent := by
    rw [hquarter]
    push_cast
    ring
  unfold roundsBack
  dsimp only
  split
  · next heven =>
      rw [Bool.and_eq_true, decide_eq_true_eq, decide_eq_true_eq, scaled_le_iff, le_scaled_iff,
        hlow, hhigh]
      exact ⟨fun h => ⟨h.1, h.2, by omega⟩, fun h => ⟨h.low, h.high⟩⟩
  · next hodd =>
      rw [Bool.and_eq_true, decide_eq_true_eq, decide_eq_true_eq, lt_scaled_iff, scaled_lt_iff,
        hlow, hhigh]
      exact ⟨fun h => ⟨h.1.le, h.2.le, fun _ => h⟩, fun h => h.odd (by omega)⟩

theorem roundDiv_cases (num den : Nat) :
    roundDiv num den = num / den ∨ roundDiv num den = num / den + 1 := by
  unfold roundDiv
  dsimp only
  split
  · exact .inl rfl
  · split
    · exact .inr rfl
    · omega

/-- What is found on a grid rounds to the number. -/
theorem roundsTo_of_onGrid (hm : 0 < mantissa) {c : Nat}
    (h : onGrid mantissa exponent num den k = some c) :
    RoundsTo mantissa exponent (c * 10 ^ k) := by
  rw [← roundsBack_iff hm]
  unfold onGrid at h
  dsimp only at h
  split at h
  · next hboth =>
      rw [Bool.and_eq_true] at hboth
      obtain rfl := Option.some.inj h
      rcases roundDiv_cases (num * (powRatio 10 k).2) (den * (powRatio 10 k).1) with hc | hc
      · rw [hc]
        exact hboth.1
      · rw [hc]
        exact hboth.2
  · split at h
    · next hbelow =>
        obtain rfl := Option.some.inj h
        exact hbelow
    · split at h
      · next habove =>
          obtain rfl := Option.some.inj h
          exact habove
      · cases h

/-! ## What is found -/

/-- Of two decimals around a number, a step apart that is less than the space of the number, the
nearer one rounds to it. -/
theorem roundsTo_below_or_above (hdigits : mantissa < 2 ^ 53) {step : ℚ} {f : Nat}
    (hbelow : f * step ≤ mantissa * 2 ^ exponent)
    (habove : mantissa * 2 ^ exponent < (f + 1) * step)
    (hstep : step * 10 ^ 16 ≤ mantissa * 2 ^ exponent) :
    RoundsTo mantissa exponent (f * step) ∨ RoundsTo mantissa exponent ((f + 1) * step) := by
  have hpow := two_zpow_pos exponent
  have hone : (mantissa : ℚ) + 1 ≤ 2 ^ 53 := by exact_mod_cast hdigits
  have hgap := gapBelow_pos mantissa exponent
  by_cases hhalf : (mantissa : ℚ) * 2 ^ exponent - f * step ≤ step / 2
  · left
    have hlow : (mantissa - gapBelow mantissa exponent) * 2 ^ exponent < f * step := by
      unfold gapBelow
      split
      · next hpower =>
          have hmantissa : (mantissa : ℚ) = 2 ^ 52 := by exact_mod_cast hpower.1
          rw [hmantissa] at hhalf hstep ⊢
          nlinarith
      · nlinarith
    have hhigh : f * step < (mantissa + 1 / 2) * 2 ^ exponent := by nlinarith
    exact ⟨hlow.le, hhigh.le, fun _ => ⟨hlow, hhigh⟩⟩
  · right
    have hlow : (mantissa - gapBelow mantissa exponent) * 2 ^ exponent < (f + 1) * step := by
      nlinarith
    have hhigh : ((f : ℚ) + 1) * step < (mantissa + 1 / 2) * 2 ^ exponent := by nlinarith
    exact ⟨hlow.le, hhigh.le, fun _ => ⟨hlow, hhigh⟩⟩

/-- A grid with a step of less than the space of a number has a decimal that rounds to it. -/
theorem exists_onGrid (hm : 0 < mantissa) (hdigits : mantissa < 2 ^ 53) (hden : 0 < den)
    (hvalue : (num : ℚ) / den = mantissa * 2 ^ exponent)
    (hstep : (10 : ℚ) ^ k * 10 ^ 16 ≤ mantissa * 2 ^ exponent) :
    onGrid mantissa exponent num den k ≠ none := by
  have hten : (0 : ℚ) < 10 ^ k := by positivity
  have hpos := Nat.mul_pos hden (powRatio_pos (by omega : 0 < 10) k).1
  have hunits := div_powRatio (by omega : 0 < 10) num den k
  rw [Nat.cast_ofNat, hvalue] at hunits
  unfold onGrid
  dsimp only
  generalize hf : num * (powRatio 10 k).2 / (den * (powRatio 10 k).1) = f
  -- the number lies between both decimals
  have hbelow : (f : ℚ) * 10 ^ k ≤ mantissa * 2 ^ exponent := by
    rw [← le_div_iff₀ hten, ← hunits, ← hf]
    exact Nat.cast_div_le
  have habove : (mantissa : ℚ) * 2 ^ exponent < (f + 1) * 10 ^ k := by
    rw [← div_lt_iff₀ hten, ← hunits, ← Nat.cast_succ, ← div_lt_iff hpos, hf]
    exact Nat.lt_succ_self f
  have hnear := roundsTo_below_or_above hdigits hbelow habove hstep
  rw [← Nat.cast_succ, ← roundsBack_iff hm, ← roundsBack_iff hm] at hnear
  intro hnone
  split at hnone
  · cases hnone
  · split at hnone
    · cases hnone
    · split at hnone
      · cases hnone
      · next hnot hnot' =>
          rcases hnear with h | h
          · exact hnot h
          · exact hnot' h

/-- The search finds a decimal that rounds to the number if there is a grid that has one. -/
theorem roundsTo_firstGrid (hm : 0 < mantissa) {p : Int} {fuel n last : Nat} (hfrom : n ≤ last)
    (hto : last < n + fuel) (h : onGrid mantissa exponent num den (p + 1 - last) ≠ none) :
    RoundsTo mantissa exponent ((firstGrid mantissa exponent num den p fuel n).1 *
      10 ^ (firstGrid mantissa exponent num den p fuel n).2) := by
  induction fuel generalizing n with
  | zero => omega
  | succ fuel ih =>
      unfold firstGrid
      dsimp only
      split
      · next c hc => exact roundsTo_of_onGrid hm hc
      · next hnone =>
          refine ih ?_ (by omega)
          by_contra hlast
          obtain rfl : n = last := by omega
          exact h hnone

/-- The first digit of a quotient has its place. -/
theorem pow_leadingPower_le (hnum : 0 < num) (hden : 0 < den) :
    (10 : ℚ) ^ leadingPower num den ≤ (num : ℚ) / den := by
  have hpos : (0 : ℚ) < den := by exact_mod_cast hden
  unfold leadingPower
  split
  · next hle =>
      have hwhole : 0 < num / den := Nat.div_pos hle hden
      have hcount := digitCount_pos (num / den)
      have hexponent : (digitCount (num / den) : Int) - 1 =
          ((digitCount (num / den) - 1 : Nat) : Int) := by omega
      rw [hexponent, zpow_natCast]
      calc (10 : ℚ) ^ (digitCount (num / den) - 1) ≤ (num / den : Nat) := by
            exact_mod_cast pow_digitCount_le hwhole
        _ ≤ num / den := Nat.cast_div_le
  · rw [zpow_neg, zpow_natCast, inv_le_comm₀ (by positivity) (by positivity), inv_div,
      div_le_iff₀ (by exact_mod_cast hnum)]
    -- the inverse of the quotient is no more than one more than its whole part
    have hlt := lt_pow_digitCount ((den - 1) / num)
    have hwhole : den ≤ ((den - 1) / num + 1) * num := by
      have hdivides := Nat.div_add_mod (den - 1) num
      have hrest := Nat.mod_lt (den - 1) hnum
      rw [Nat.add_mul, Nat.mul_comm]
      omega
    exact_mod_cast hwhole.trans (Nat.mul_le_mul_right num hlt)

/-- The decimal that a number is written as rounds to it. -/
theorem roundsTo_shortest (hcanonical : IsCanonical mantissa exponent) (hm : 0 < mantissa) :
    RoundsTo mantissa exponent
      ((shortest mantissa exponent).1 * 10 ^ (shortest mantissa exponent).2) := by
  obtain ⟨hone, htwo⟩ := powRatio_pos Nat.two_pos exponent
  have hvalue := mul_powRatio 2 mantissa exponent
  rw [Nat.cast_two] at hvalue
  have hleading := pow_leadingPower_le (Nat.mul_pos hm hone) htwo
  unfold shortest
  dsimp only
  generalize leadingPower _ _ = p at hleading ⊢
  -- seventeen digits are enough
  have hstep : (10 : ℚ) ^ (p + 1 - (17 : Nat) : Int) * 10 ^ 16 ≤ mantissa * 2 ^ exponent := by
    rw [← hvalue]
    refine le_of_eq_of_le ?_ hleading
    rw [show (p + 1 - (17 : Nat) : Int) = p - 16 by push_cast; ring, zpow_sub₀ (by norm_num)]
    norm_num
  exact roundsTo_firstGrid hm (by omega) (by omega)
    (exists_onGrid hm hcanonical.digits htwo hvalue hstep)

end ImportAudit.Number
