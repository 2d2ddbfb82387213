/-
# ImportAudit.Proofs.Json.Floats — numbers with a fraction are JSON.

A finite number is written as digits with a point among them or with an exponent behind them.  In
each of these layouts the text is a decimal with the value of the digits at their places
(`isDecimal_placePoint`), and the decimal rounds to the number, so the text denotes it
(`denotes_float`).
-/
import ImportAudit.Number.Decimal
import ImportAudit.Proofs.Json.Written
import ImportAudit.Proofs.Number.Shortest
import Mathlib.Data.List.TakeWhile

namespace ImportAudit.Json

open Number (stripZeros placePoint exponentDigits IsCanonical)

/-! ## Digits -/

theorem digitsFrom_eq (ds : List Char) (n : Nat) :
    ds.foldl (fun n d => n * 10 + (d.toNat - '0'.toNat)) n =
      n * 10 ^ ds.length + digitsValue ds := by
  unfold digitsValue
  induction ds generalizing n with
  | nil => simp
  | cons d ds ih =>
      rw [List.foldl_cons, List.foldl_cons, ih, ih (0 * 10 + _), List.length_cons, Nat.pow_succ]
      ring

theorem digitsValue_append (ds ds' : List Char) :
    digitsValue (ds ++ ds') = digitsValue ds * 10 ^ ds'.length + digitsValue ds' := by
  rw [digitsValue, List.foldl_append, digitsFrom_eq]
  rfl

theorem digitsValue_zeros (n : Nat) : digitsValue (List.replicate n '0') = 0 := by
  induction n with
  | zero => rfl
  | succ n ih => rw [List.replicate_succ', digitsValue_append, ih]; rfl

/-- Zeros before digits do not count. -/
theorem digitsValue_zeros_append (n : Nat) (ds : List Char) :
    digitsValue (List.replicate n '0' ++ ds) = digitsValue ds := by
  rw [digitsValue_append, digitsValue_zeros, Nat.zero_mul, Nat.zero_add]

theorem isDigits_zeros_append {ds : List Char} (h : IsDigits ds) (n : Nat) :
    IsDigits (List.replicate n '0' ++ ds) := by
  refine ⟨fun d hd => ?_, fun hnil => h.ne_nil (List.append_eq_nil_iff.mp hnil).2⟩
  rcases List.mem_append.mp hd with hd | hd
  · rw [List.eq_of_mem_replicate hd]
    rfl
  · exact h.digit d hd

/-- What is stripped of digits are zeros. -/
theorem stripZeros_append (ds : List Char) :
    ∃ n, ds = stripZeros ds ++ List.replicate n '0' := by
  have hzeros : ds.reverse.takeWhile (· = '0') =
      List.replicate (ds.reverse.takeWhile (· = '0')).length '0' :=
    List.eq_replicate_iff.mpr ⟨rfl, fun d hd => by simpa using List.mem_takeWhile_imp hd⟩
  refine ⟨(ds.reverse.takeWhile (· = '0')).length, ?_⟩
  have hboth := congrArg List.reverse
    (List.takeWhile_append_dropWhile (p := fun d => decide (d = '0')) (l := ds.reverse))
  rw [List.reverse_append, List.reverse_reverse, hzeros, List.reverse_replicate] at hboth
  exact hboth.symm

/-! ## Decimals -/

/-- The text is that of a number with a fraction or an exponent, which has this value. -/
def IsDecimal (cs : List Char) (r : ℚ) : Prop :=
  ∃ ds point places mark exponent, cs = ds ++ point ++ mark ∧ IsWhole ds ∧ IsFraction point places ∧
    IsExponent mark exponent ∧ (point ≠ [] ∨ mark ≠ []) ∧
    (digitsValue (ds ++ places) : ℚ) * 10 ^ (exponent - (places.length : Int)) = r

theorem isExponent_text (e : Int) :
    IsExponent ("e" ++ (if e < 0 then "-" else "+") ++ exponentDigits e.natAbs).toList e := by
  have hdigits : ∀ n, IsDigits (exponentDigits n).toList ∧
      digitsValue (exponentDigits n).toList = n := by
    intro n
    have hwhole := (isWhole_toDigits n).toIsDigits
    have htext : (toString n).toList = Nat.toDigits 10 n := Nat.toList_repr
    unfold exponentDigits
    split
    · rw [String.toList_append, htext]
      exact ⟨isDigits_zeros_append hwhole 1,
        (digitsValue_zeros_append 1 _).trans (digitsValue_toDigits n)⟩
    · rw [htext]
      exact ⟨hwhole, digitsValue_toDigits n⟩
  obtain ⟨h, hvalue⟩ := hdigits e.natAbs
  rw [String.toList_append, String.toList_append]
  split
  · next hneg =>
      have hexponent := IsExponent.minus (.inl rfl) h
      rw [hvalue] at hexponent
      rwa [show (-(e.natAbs : Int)) = e by omega] at hexponent
  · next hpos =>
      have hexponent := IsExponent.plus (.inl rfl) h
      rw [hvalue] at hexponent
      rwa [show (e.natAbs : Int) = e by omega] at hexponent

section

variable {ds : List Char}

/-- Digits that do not begin with a zero may stand before a point. -/
theorem IsDigits.isWhole (h : IsDigits ds) (hhead : ds.head? ≠ some '0') : IsWhole ds :=
  ⟨h, fun hzero => absurd hzero hhead⟩

/-- The point before the digits, with zeros between them. -/
theorem isDecimal_before (h : IsDigits ds) (n : Nat) :
    IsDecimal (['0'] ++ '.' :: (List.replicate n '0' ++ ds))
      (digitsValue ds * 10 ^ (-(n : Int) - ds.length)) := by
  have hzero : IsWhole ['0'] := ⟨⟨by simp, List.cons_ne_nil _ _⟩, fun _ => rfl⟩
  refine ⟨['0'], _, List.replicate n '0' ++ ds, [], 0, (List.append_nil _).symm, hzero,
    .present (isDigits_zeros_append h n), .absent, .inl (List.cons_ne_nil _ _), ?_⟩
  rw [← List.replicate_one, digitsValue_zeros_append, digitsValue_zeros_append]
  congr 2
  rw [List.length_append, List.length_replicate]
  omega

/-- The point behind the digits, with zeros between them. -/
theorem isDecimal_behind (h : IsDigits ds) (hhead : ds.head? ≠ some '0') (n : Nat) :
    IsDecimal (ds ++ List.replicate n '0' ++ ['.', '0']) (digitsValue ds * 10 ^ (n : Int)) := by
  have hzero : IsDigits ['0'] := ⟨by simp, List.cons_ne_nil _ _⟩
  have hdigits : IsDigits (ds ++ List.replicate n '0') := by
    refine ⟨fun d hd => ?_, fun hnil => h.ne_nil (List.append_eq_nil_iff.mp hnil).1⟩
    rcases List.mem_append.mp hd with hd | hd
    · exact h.digit d hd
    · rw [List.eq_of_mem_replicate hd]
      rfl
  have hwhole : IsWhole (ds ++ List.replicate n '0') :=
    hdigits.isWhole (by rwa [List.head?_append_of_ne_nil _ h.ne_nil])
  refine ⟨ds ++ List.replicate n '0', _, ['0'], [], 0, (List.append_nil _).symm, hwhole,
    .present hzero, .absent, .inl (List.cons_ne_nil _ _), ?_⟩
  have hnone : digitsValue ['0'] = 0 := rfl
  rw [digitsValue_append, digitsValue_append, digitsValue_zeros, hnone, List.length_replicate,
    List.length_singleton, zpow_natCast]
  push_cast
  norm_num
  ring

/-- The point between the digits. -/
theorem isDecimal_between (h : IsDigits ds) (hhead : ds.head? ≠ some '0') {n : Nat} (hpos : 0 < n)
    (hlt : n < ds.length) :
    IsDecimal (ds.take n ++ '.' :: ds.drop n) (digitsValue ds * 10 ^ ((n : Int) - ds.length)) := by
  have hsplit : ds.take n ++ ds.drop n = ds := List.take_append_drop _ _
  have htake : ds.take n ≠ [] := by
    rw [ne_eq, List.take_eq_nil_iff, not_or]
    exact ⟨hpos.ne', h.ne_nil⟩
  have hdrop : ds.drop n ≠ [] := by
    rw [ne_eq, List.drop_eq_nil_iff]
    omega
  have hwhole : IsWhole (ds.take n) := by
    rw [← hsplit, List.head?_append_of_ne_nil _ htake] at hhead
    exact IsDigits.isWhole ⟨fun d hd => h.digit d (List.mem_of_mem_take hd), htake⟩ hhead
  refine ⟨ds.take n, _, ds.drop n, [], 0, (List.append_nil _).symm, hwhole,
    .present ⟨fun d hd => h.digit d (List.mem_of_mem_drop hd), hdrop⟩, .absent,
    .inl (List.cons_ne_nil _ _), ?_⟩
  rw [hsplit]
  congr 2
  rw [List.length_drop]
  omega

/-- The point behind the first digit, and an exponent. -/
theorem isDecimal_exponent {d : Char} {rest mark : List Char} {e : Int} (h : IsDigits (d :: rest))
    (hhead : (d :: rest).head? ≠ some '0') (hmark : IsExponent mark e) (hne : mark ≠ []) :
    IsDecimal ((if rest = [] then [d] else d :: '.' :: rest) ++ mark)
      (digitsValue (d :: rest) * 10 ^ (e - (rest.length : Int))) := by
  have hd : IsWhole [d] := by
    refine IsDigits.isWhole ⟨fun c hc => ?_, List.cons_ne_nil _ _⟩ hhead
    rw [List.mem_singleton.mp hc]
    exact h.digit d List.mem_cons_self
  by_cases hrest : rest = []
  · subst hrest
    exact ⟨[d], [], [], mark, e, by simp, hd, .absent, hmark, .inr hne, rfl⟩
  · rw [if_neg hrest]
    exact ⟨[d], _, rest, mark, e, rfl, hd,
      .present ⟨fun c hc => h.digit c (List.mem_cons_of_mem d hc), hrest⟩, hmark, .inr hne, rfl⟩

/-- Digits that do not begin with a zero, with a point placed among them, are a decimal. -/
theorem isDecimal_placePoint (h : IsDigits ds) (hhead : ds.head? ≠ some '0') (point : Int) :
    IsDecimal (placePoint ds point).toList (digitsValue ds * 10 ^ (point - (ds.length : Int))) := by
  unfold placePoint
  split
  · split
    · have hdecimal := isDecimal_before h (-point).toNat
      rw [show -((-point).toNat : Int) - ds.length = point - ds.length by omega] at hdecimal
      simpa using hdecimal
    · dsimp only
      split
      · have hdecimal := isDecimal_behind h hhead (point.toNat - ds.length)
        rw [show ((point.toNat - ds.length : Nat) : Int) = point - ds.length by omega] at hdecimal
        simpa using hdecimal
      · have hdecimal := isDecimal_between h hhead (n := point.toNat) (by omega) (by omega)
        rw [show (point.toNat : Int) = point by omega] at hdecimal
        simpa using hdecimal
  · obtain ⟨d, rest, rfl⟩ := List.exists_cons_of_ne_nil h.ne_nil
    have hne : ("e" ++ (if point - 1 < 0 then "-" else "+") ++
        exponentDigits (point - 1).natAbs).toList ≠ [] := by simp
    have hdecimal := isDecimal_exponent h hhead (isExponent_text (point - 1)) hne
    rw [show point - 1 - (rest.length : Int) = point - ((d :: rest).length : Int) by
      rw [List.length_cons]; push_cast; ring] at hdecimal
    cases rest with
    | nil => simpa using hdecimal
    | cons next rest => simpa using hdecimal

end

/-- The digits of a decimal without the zeros at their end, with the point at its place, are a text
of the decimal. -/
theorem isDecimal_digits {c : Nat} (hc : 0 < c) (k : Int) :
    IsDecimal (placePoint (stripZeros (Nat.toDigits 10 c))
      (k + (Nat.toDigits 10 c).length)).toList (c * 10 ^ k) := by
  obtain ⟨zeros, hzeros⟩ := stripZeros_append (Nat.toDigits 10 c)
  have hwhole := isWhole_toDigits c
  have hvalue := digitsValue_toDigits c
  generalize stripZeros (Nat.toDigits 10 c) = ds at hzeros ⊢
  rw [hzeros] at hwhole hvalue ⊢
  have hne : ds ≠ [] := by
    rintro rfl
    rw [List.nil_append, digitsValue_zeros] at hvalue
    omega
  have hhead : ds.head? ≠ some '0' := by
    intro hzero
    have hall := hwhole.zero (by rwa [List.head?_append_of_ne_nil _ hne])
    rw [hall] at hvalue
    have : digitsValue ['0'] = 0 := rfl
    omega
  have hdecimal := isDecimal_placePoint
    ⟨fun d hd => hwhole.digit d (List.mem_append_left _ hd), hne⟩ hhead
    (k + (ds ++ List.replicate zeros '0').length)
  rw [digitsValue_append, digitsValue_zeros] at hvalue
  rw [List.length_replicate, Nat.add_zero] at hvalue
  have hscale : k + ((ds ++ List.replicate zeros '0').length : Int) - ds.length = zeros + k := by
    rw [List.length_append, List.length_replicate]
    push_cast
    ring
  rw [hscale, zpow_add₀ (by norm_num), zpow_natCast, ← mul_assoc] at hdecimal
  rw [← hvalue]
  push_cast
  exact hdecimal

/-! ## Numbers -/

/-- What is written for a finite number denotes it. -/
theorem denotes_float (negative : Bool) {mantissa : Nat} {exponent : Int}
    (h : IsCanonical mantissa exponent) :
    Denotes (Number.Binary64.finite negative mantissa exponent).toJson.toList
      (.float (.finite negative mantissa exponent)) := by
  have hsign : (Number.Binary64.sign negative).toList = sign negative := by
    cases negative <;> rfl
  unfold Number.Binary64.toJson Number.Binary64.writeWith
  split
  · next heq => cases heq
  · next heq => cases heq
  · next heq =>
      cases heq
      obtain rfl := h.filled.resolve_left (by norm_num)
      have hzero : IsWhole ['0'] := ⟨⟨by simp, List.cons_ne_nil _ _⟩, fun _ => rfl⟩
      have htext := Denotes.decimal negative hzero (.present hzero.toIsDigits) .absent
        (.inl (List.cons_ne_nil _ _))
      have hread : Number.Binary64.ofDecimal negative (digitsValue ['0', '0']) (-1) =
          .finite negative 0 Number.minExponent := rfl
      rw [String.toList_append, hsign]
      simpa [hread] using htext
  · next m _ hm heq =>
      cases heq
      have hpos : 0 < mantissa := Nat.pos_of_ne_zero hm
      have hrounds := Number.roundsTo_shortest h hpos
      have hdigits : 0 < (Number.Binary64.shortest mantissa exponent).1 := by
        by_contra hzero
        have hpositive := hrounds.pos hpos
        rw [Nat.eq_zero_of_not_pos hzero, Nat.cast_zero, zero_mul] at hpositive
        exact absurd hpositive (lt_irrefl _)
      obtain ⟨ds, point, places, mark, scale, htext, hwhole, hfraction, hscale, hsome, hvalue⟩ :=
        isDecimal_digits hdigits (Number.Binary64.shortest mantissa exponent).2
      have hdenotes := Denotes.decimal negative hwhole hfraction hscale hsome
      rw [← hvalue] at hrounds
      rw [Number.ofDecimal_eq negative h hpos hrounds] at hdenotes
      rw [String.toList_append, hsign]
      simpa [htext] using hdenotes

end ImportAudit.Json
