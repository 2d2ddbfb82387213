/-
# ImportAudit.Proofs.Json.Lexemes — numbers, strings and names are read up to their end.

The reader takes the longest number that it can, so a number is read as it was written only if what
stands behind it cannot be mistaken for more of it (`IsEnd`); a string ends with its quote.  Each
part of a number is shown to take what it is meant for and to leave the rest, and a string to be read
character by character, in whichever way each is written (`readString_spells`).  From these, a text
that denotes a value which lies in no brackets is read as that value, provided that it is no integer
with too many digits (`readValue_of_isFlat`).
-/
import ImportAudit.Proofs.Json.Bounds
import ImportAudit.Proofs.Json.Grammar
import Mathlib.Algebra.Group.Nat.Defs

namespace ImportAudit.Json

/-! ## Values that lie in no brackets -/

/-- An integer has no more digits than the reader takes. -/
def FewDigits (i : Int) : Prop := i.natAbs < 10 ^ maxDigits

instance (i : Int) : Decidable (FewDigits i) :=
  inferInstanceAs (Decidable (i.natAbs < 10 ^ maxDigits))

/-- A value is neither a list nor a mapping, and if it is an integer it has few digits. -/
def IsFlat : Value → Prop
  | .list _ | .mapping _ => False
  | .int i => FewDigits i
  | _ => True

/-! ## What may stand behind a value -/

/-- What ends a number: a blank, a comma or a bracket that closes. -/
def endsNumber (c : Char) : Bool := isBlank c || c == ',' || c == ']' || c == '}'

/-- The text is at its end, or goes on with what ends a number. -/
def IsEnd (rest : List Char) : Prop := ∀ c ∈ rest.head?, endsNumber c = true

theorem endsNumber_spec {c : Char} (h : endsNumber c = true) :
    c.isDigit = false ∧ c ≠ '.' ∧ c ≠ 'e' ∧ c ≠ 'E' := by
  simp only [endsNumber, isBlank, Bool.or_eq_true, beq_iff_eq] at h
  rcases h with (((((rfl | rfl) | rfl) | rfl) | rfl) | rfl) | rfl <;> decide

theorem isEnd_nil : IsEnd [] := by simp [IsEnd]

theorem isEnd_cons {c : Char} {rest : List Char} (h : endsNumber c = true) : IsEnd (c :: rest) := by
  simpa [IsEnd] using h

/-- Blanks end a number, and so does what stands behind them. -/
theorem IsBlanks.isEnd_append {blanks rest : List Char} (h : IsBlanks blanks) (hrest : IsEnd rest) :
    IsEnd (blanks ++ rest) := by
  cases blanks with
  | nil => exact hrest
  | cons c cs =>
      apply isEnd_cons
      simp [endsNumber, h c List.mem_cons_self]

theorem skipBlank_append {blanks : List Char} (h : IsBlanks blanks) (rest : List Char) :
    skipBlank (blanks ++ rest) = skipBlank rest :=
  List.dropWhile_append_of_pos h

theorem skipBlank_cons {c : Char} (h : isBlank c = false) (rest : List Char) :
    skipBlank (c :: rest) = c :: rest := by
  simp [skipBlank, h]

/-! ## Numbers -/

/-- The text does not go on with a digit. -/
def NoDigit (rest : List Char) : Prop := ∀ c ∈ rest.head?, c.isDigit = false

theorem IsEnd.noDigit {rest : List Char} (h : IsEnd rest) : NoDigit rest :=
  fun c hc => (endsNumber_spec (h c hc)).1

theorem noDigit_cons {c : Char} {rest : List Char} (h : c.isDigit = false) :
    NoDigit (c :: rest) := by
  simpa [NoDigit] using h

/-- All digits are taken, and nothing else. -/
theorem spanDigits_append {ds rest : List Char} (h : ∀ d ∈ ds, d.isDigit = true)
    (hrest : NoDigit rest) : spanDigits (ds ++ rest) = (ds, rest) := by
  rw [spanDigits_eq, List.takeWhile_append_of_pos h, List.dropWhile_append_of_pos h]
  cases rest with
  | nil => simp
  | cons c cs =>
      have hc : c.isDigit = false := hrest c rfl
      simp [hc]

theorem readWhole_append {ds rest : List Char} (h : IsWhole ds) (hrest : NoDigit rest) :
    readWhole (ds ++ rest) = (ds, rest) := by
  unfold readWhole
  split
  · next more heq =>
      -- nothing may stand behind a zero that comes first
      cases ds with
      | nil => exact absurd rfl h.ne_nil
      | cons d ds =>
          simp only [List.cons_append, List.cons.injEq] at heq
          obtain ⟨rfl, rfl⟩ := heq
          have hzero := h.zero rfl
          simp only [List.cons.injEq, true_and] at hzero
          subst hzero
          rfl
  · exact spanDigits_append h.digit hrest

/-- A fraction is read with the point before it. -/
theorem readFraction_append {point places rest : List Char} (h : IsFraction point places)
    (hdigit : NoDigit rest) (hpoint : ∀ c ∈ rest.head?, c ≠ '.') :
    readFraction (point ++ rest) = (places, rest) := by
  cases h with
  | absent =>
      unfold readFraction
      split
      · next more heq =>
          rw [List.nil_append] at heq
          subst heq
          exact absurd rfl (hpoint '.' rfl)
      · rfl
  | present h =>
      simp only [List.cons_append, readFraction]
      rw [spanDigits_append h.digit hdigit]
      split
      · next heq => exact absurd (congrArg Prod.fst heq) h.ne_nil
      · next heq =>
          cases heq
          rfl

theorem isDigit_ne_sign {d : Char} (h : d.isDigit = true) : d ≠ '-' ∧ d ≠ '+' := by
  constructor <;> (rintro rfl; revert h; decide)

/-- An exponent behind its mark and its sign. -/
theorem readExponent_signed {mark : Char} (hmark : mark = 'e' ∨ mark = 'E') {more ds rest : List Char}
    {negative : Bool} (h : IsDigits ds) (hrest : NoDigit rest)
    (hsign : readSign more = (negative, ds ++ rest)) :
    readExponent (mark :: more) =
      (some (if negative then -(digitsValue ds : Int) else digitsValue ds), rest) := by
  unfold readExponent
  simp only [if_pos hmark, hsign]
  rw [spanDigits_append h.digit hrest]
  split
  · next heq => exact absurd (congrArg Prod.fst heq) h.ne_nil
  · next heq =>
      cases heq
      rfl

/-- The exponent is there exactly if it was written. -/
theorem readExponent_append {mark rest : List Char} {exponent : Int} (h : IsExponent mark exponent)
    (hrest : IsEnd rest) :
    readExponent (mark ++ rest) = (if mark = [] then none else some exponent, rest) := by
  cases h with
  | absent =>
      cases rest with
      | nil => rfl
      | cons c cs =>
          obtain ⟨-, -, he, hE⟩ := endsNumber_spec (hrest c rfl)
          simp [readExponent, he, hE]
  | @plain c ds hmark h =>
      have hsign : readSign (ds ++ rest) = (false, ds ++ rest) := by
        cases ds with
        | nil => exact absurd rfl h.ne_nil
        | cons d ds =>
            obtain ⟨hminus, hplus⟩ := isDigit_ne_sign (h.digit d List.mem_cons_self)
            unfold readSign
            split
            · next heq => exact absurd (List.cons.inj heq).1 hminus
            · next heq => exact absurd (List.cons.inj heq).1 hplus
            · rfl
      simpa using readExponent_signed hmark h hrest.noDigit hsign
  | @plus c ds hmark h =>
      have hsign : readSign ('+' :: (ds ++ rest)) = (false, ds ++ rest) := rfl
      simpa using readExponent_signed hmark h hrest.noDigit hsign
  | @minus c ds hmark h =>
      have hsign : readSign ('-' :: (ds ++ rest)) = (true, ds ++ rest) := rfl
      simpa using readExponent_signed hmark h hrest.noDigit hsign

/-- The sign is taken off, and the digits stay. -/
theorem unsigned_append (negative : Bool) {ds : List Char} (h : IsWhole ds) (rest : List Char) :
    decide ((sign negative ++ ds ++ rest).head? = some '-') = negative ∧
      (if (sign negative ++ ds ++ rest).head? = some '-' then (sign negative ++ ds ++ rest).tail
        else sign negative ++ ds ++ rest) = ds ++ rest := by
  cases ds with
  | nil => exact absurd rfl h.ne_nil
  | cons d ds =>
      have hminus : d ≠ '-' := (isDigit_ne_sign (h.digit d List.mem_cons_self)).1
      cases negative with
      | true => simp [sign]
      | false => simp [sign, hminus]

/-- A number is read up to its end. -/
theorem readNumber_append (negative : Bool) {ds point places mark rest : List Char} {exponent : Int}
    (h : IsWhole ds) (hfraction : IsFraction point places) (hscale : IsExponent mark exponent)
    (hrest : IsEnd rest) :
    readNumber (sign negative ++ ds ++ (point ++ (mark ++ rest))) =
      (numberValue negative ds places (if mark = [] then none else some exponent)).map
        fun v => (v, rest) := by
  -- a mark is no digit and no point, and a point is no digit
  have hmark : ∀ c ∈ (mark ++ rest).head?, c.isDigit = false ∧ c ≠ '.' := by
    intro c hc
    cases hscale with
    | absent =>
        obtain ⟨hdigit, hpoint, -⟩ := endsNumber_spec (hrest c hc)
        exact ⟨hdigit, hpoint⟩
    | plain hmark | plus hmark | minus hmark =>
        cases hc
        rcases hmark with rfl | rfl <;> decide
  have hpoint : NoDigit (point ++ (mark ++ rest)) := by
    cases hfraction with
    | absent => exact fun c hc => (hmark c hc).1
    | present => exact noDigit_cons (by decide)
  obtain ⟨hnegative, hunsigned⟩ := unsigned_append negative h (point ++ (mark ++ rest))
  unfold readNumber
  dsimp only
  rw [hnegative, hunsigned, readWhole_append h hpoint]
  split
  · next heq => exact absurd (congrArg Prod.fst heq) h.ne_nil
  · next heq =>
      cases heq
      rw [readFraction_append hfraction (fun c hc => (hmark c hc).1) fun c hc => (hmark c hc).2]
      dsimp only
      rw [readExponent_append hscale hrest]
      cases numberValue negative ds places (if mark = [] then none else some exponent) <;> rfl

/-! ### The digits of an integer -/

theorem le_digitsFrom (ds : List Char) (n : Nat) :
    n * 10 ^ ds.length ≤ ds.foldl (fun n d => n * 10 + (d.toNat - '0'.toNat)) n := by
  induction ds generalizing n with
  | nil => simp
  | cons d ds ih =>
      have hstep := ih (n * 10 + (d.toNat - '0'.toNat))
      rw [List.foldl_cons, List.length_cons, Nat.pow_succ]
      calc n * (10 ^ ds.length * 10) = n * 10 * 10 ^ ds.length := by
            rw [Nat.mul_comm (10 ^ ds.length), Nat.mul_assoc]
        _ ≤ (n * 10 + (d.toNat - '0'.toNat)) * 10 ^ ds.length :=
            Nat.mul_le_mul_right _ (Nat.le_add_right _ _)
        _ ≤ _ := hstep

/-- Digits that do not begin with a zero are as many as their number has. -/
theorem length_le_of_fewDigits {ds : List Char} (h : IsWhole ds) {m : Nat} (hm : 0 < m)
    (hfew : digitsValue ds < 10 ^ m) : ds.length ≤ m := by
  cases ds with
  | nil => exact Nat.zero_le m
  | cons d ds =>
      by_cases hd : d = '0'
      · subst hd
        have hzero := h.zero rfl
        rw [hzero]
        exact hm
      · -- the first digit stands for as many tens as there are digits behind it
        have hdigit := h.digit d List.mem_cons_self
        have hpos : 1 ≤ d.toNat - '0'.toNat := by
          simp only [Char.isDigit, Bool.and_eq_true, decide_eq_true_eq] at hdigit
          have hlow : '0'.toNat ≤ d.toNat := hdigit.1
          have hne : d.toNat ≠ '0'.toNat := fun heq => hd (Char.toNat_inj.mp heq)
          omega
        have hle : 10 ^ ds.length ≤ digitsValue (d :: ds) := by
          have hfrom := le_digitsFrom ds (0 * 10 + (d.toNat - '0'.toNat))
          calc 10 ^ ds.length ≤ (0 * 10 + (d.toNat - '0'.toNat)) * 10 ^ ds.length :=
                Nat.le_mul_of_pos_left _ (by omega)
            _ ≤ digitsValue (d :: ds) := hfrom
        have hlt : ds.length < m :=
          (Nat.pow_lt_pow_iff_right (by decide)).mp (Nat.lt_of_le_of_lt hle hfew)
        exact hlt

/-- A whole number that has few digits is an integer. -/
theorem numberValue_integer (negative : Bool) {ds : List Char} (h : IsWhole ds)
    (hfew : FewDigits (if negative then -(digitsValue ds : Int) else digitsValue ds)) :
    numberValue negative ds [] none =
      .ok (.int (if negative then -(digitsValue ds : Int) else digitsValue ds)) := by
  have hlt : digitsValue ds < 10 ^ maxDigits := by
    unfold FewDigits at hfew
    cases negative <;> simpa using hfew
  have hle : ds.length ≤ maxDigits := length_le_of_fewDigits h (by decide) hlt
  unfold numberValue
  rw [if_pos ⟨rfl, rfl⟩, if_neg (Nat.not_lt.mpr hle)]

/-- A number with a fraction or an exponent is not an integer. -/
theorem numberValue_decimal (negative : Bool) {ds point places mark : List Char} {exponent : Int}
    (hfraction : IsFraction point places) (hscale : IsExponent mark exponent)
    (hsome : point ≠ [] ∨ mark ≠ []) :
    numberValue negative ds places (if mark = [] then none else some exponent) =
      .ok (.float (.ofDecimal negative (digitsValue (ds ++ places))
        (exponent - places.length))) := by
  have hparts : ¬(places = [] ∧ (if mark = [] then none else some exponent) = none) := by
    rintro ⟨hplaces, hmark⟩
    rcases hsome with hpoint | hmark'
    · cases hfraction with
      | absent => exact hpoint rfl
      | present h => exact h.ne_nil hplaces
    · rw [if_neg hmark'] at hmark
      cases hmark
  have hexponent : (if mark = [] then none else some exponent).getD 0 = exponent := by
    split
    · next hmark =>
        -- an exponent that was not written is zero
        cases hscale with
        | absent => rfl
        | plain | plus | minus => cases hmark
    · rfl
  unfold numberValue
  rw [if_neg hparts, hexponent]

/-! ## Names -/

/-- A number begins with no name. -/
theorem readName?_number (negative : Bool) {ds : List Char} (h : IsDigits ds) (rest : List Char) :
    readName? (sign negative ++ ds ++ rest) = none := by
  cases ds with
  | nil => exact absurd rfl h.ne_nil
  | cons d ds =>
      have hdigit := h.digit d List.mem_cons_self
      have hne : ∀ c : Char, c.isDigit = false → c ≠ d := by
        rintro c hc rfl
        rw [hdigit] at hc
        cases hc
      have hn := hne 'n' rfl
      have ht := hne 't' rfl
      have hf := hne 'f' rfl
      have hN := hne 'N' rfl
      have hI := hne 'I' rfl
      have hminus := hne '-' rfl
      cases negative <;>
        simp [readName?, names, sign, List.findSome?, hn, ht, hf, hN, hI, hminus]

/-! ## Strings -/

theorem notSurrogate (c : Char) :
    isHighSurrogate c.toNat = false ∧ isLowSurrogate c.toNat = false := by
  have hvalid := c.valid
  simp only [UInt32.isValidChar, Nat.isValidChar] at hvalid
  have hval : c.val.toNat = c.toNat := rfl
  rw [hval] at hvalid
  simp only [isHighSurrogate, isLowSurrogate, Bool.and_eq_false_iff, decide_eq_false_iff_not]
  omega

theorem readEscape_short {e c : Char} (h : shortEscape? e = some c) (rest : List Char) :
    readEscape (e :: rest) = .ok (c, rest) := by
  have he : e ≠ 'u' := by
    rintro rfl
    cases h
  unfold readEscape
  split
  · next heq => exact absurd (List.cons.inj heq).1 he
  · next heq => exact absurd (List.cons.inj heq).1 he
  · next heq =>
      cases heq
      rw [h]
  · next heq => cases heq

/-- The escape of a character by its code unit. -/
theorem readEscape_unit {h₁ h₂ h₃ h₄ : Char} {n : Nat} (h : hexValue4? h₁ h₂ h₃ h₄ = some n)
    (hhigh : isHighSurrogate n = false) {rest : List Char} (hrest : rest ≠ []) :
    readEscape ('u' :: h₁ :: h₂ :: h₃ :: h₄ :: rest) = .ok (unitChar n, rest) := by
  obtain ⟨f, more, rfl⟩ := List.exists_cons_of_ne_nil hrest
  simp only [readEscape, h]
  split
  · next heq => cases heq
  · next heq _ =>
      -- what follows may look like a second half, but there is no first one
      cases heq
      rw [if_neg (by simp [hhigh])]
  · next heq _ =>
      cases heq
      rfl

theorem unitChar_toNat (c : Char) : unitChar c.toNat = c := by
  obtain ⟨hhigh, hlow⟩ := notSurrogate c
  rw [unitChar, hhigh, hlow, Bool.or_self, if_neg Bool.false_ne_true, Char.ofNat_toNat]

/-- The escape of a character by its two halves. -/
theorem readEscape_pair {h₁ h₂ h₃ h₄ l₁ l₂ l₃ l₄ : Char} {high low : Nat}
    (hhigh : hexValue4? h₁ h₂ h₃ h₄ = some high) (hlow : hexValue4? l₁ l₂ l₃ l₄ = some low)
    (first : isHighSurrogate high = true) (second : isLowSurrogate low = true)
    {rest : List Char} (hrest : rest ≠ []) :
    readEscape ('u' :: h₁ :: h₂ :: h₃ :: h₄ :: '\\' :: 'u' :: l₁ :: l₂ :: l₃ :: l₄ :: rest) =
      .ok (pairChar high low, rest) := by
  obtain ⟨f, more, rfl⟩ := List.exists_cons_of_ne_nil hrest
  simp [readEscape, hhigh, hlow, first, second]

/-- A string is read character by character, in whichever way each is written. -/
theorem readString_spells (start : List Char) (fuel : Nat) (chars : List Char) {cs : List Char}
    {c : Char} (h : Spells cs c) {rest : List Char} (hrest : rest ≠ []) :
    readString start (fuel + 1) chars (cs ++ rest) = readString start fuel (c :: chars) rest := by
  cases h with
  | itself hquote hbackslash hcontrol =>
      have hlow : ¬c.toNat < 0x20 := Nat.not_lt.mpr hcontrol
      simp [readString, hbackslash, hlow]
  | short h =>
      simp [readString, readEscape_short h]
  | unit h =>
      simp [readString, readEscape_unit h (notSurrogate c).1 hrest, unitChar_toNat]
  | pair hhigh hlow first second =>
      simp [readString, readEscape_pair hhigh hlow first second hrest]

/-- A string is read up to the quote behind it. -/
theorem readString_append (start : List Char) {cs s : List Char} (h : SpellsAll cs s)
    (rest : List Char) {fuel : Nat} (hfuel : cs.length < fuel) (chars : List Char) :
    readString start fuel chars (cs ++ '"' :: rest) =
      .ok (String.ofList (chars.reverse ++ s), rest) := by
  induction h generalizing fuel chars with
  | nil =>
      cases fuel with
      | zero => cases hfuel
      | succ fuel => simp [readString]
  | @cons cs more c s first hmore ih =>
      cases fuel with
      | zero => cases hfuel
      | succ fuel =>
          have hpos : 0 < cs.length := by cases first <;> simp
          have hlt : more.length < fuel := by
            rw [List.length_append] at hfuel
            omega
          rw [List.append_assoc, readString_spells start fuel chars first (by simp), ih hlt]
          simp

/-! ## What is flat -/

/-- What is flat is read up to its end. -/
theorem readValue_of_isFlat {cs rest : List Char} {v : Value} (h : Denotes cs v) (hflat : IsFlat v)
    (hrest : IsEnd rest) {size : Nat} (hsize : (cs ++ rest).length < size) (depth : Nat) :
    readValue size depth (cs ++ rest) = .ok (v, rest) := by
  have hnumber : ∀ (negative : Bool) {ds : List Char}, IsDigits ds → ∀ more,
      readValue size depth (sign negative ++ ds ++ more) =
        readNumber (sign negative ++ ds ++ more) := by
    intro negative ds hds more
    have hname := readName?_number negative hds more
    obtain ⟨c, tail, hcs, hc⟩ : ∃ c tail, sign negative ++ ds ++ more = c :: tail ∧
        c ≠ '"' ∧ c ≠ '[' ∧ c ≠ '{' := by
      cases negative with
      | true => exact ⟨'-', ds ++ more, rfl, by decide⟩
      | false =>
          cases ds with
          | nil => exact absurd rfl hds.ne_nil
          | cons d ds =>
              have hdigit := hds.digit d List.mem_cons_self
              refine ⟨d, ds ++ more, rfl, ?_, ?_, ?_⟩ <;> (rintro rfl; revert hdigit; decide)
    rw [hcs] at hname ⊢
    simp [readValue, hc, hname]
  cases h with
  | null => simp [readValue, readName?, names]
  | isTrue => simp [readValue, readName?, names, List.findSome?]
  | isFalse => simp [readValue, readName?, names, List.findSome?]
  | integer negative h =>
      have hread := readNumber_append negative h .absent .absent hrest
      rw [if_pos rfl, numberValue_integer negative h hflat] at hread
      rw [hnumber negative h.toIsDigits]
      exact hread
  | decimal negative h hfraction hscale hsome =>
      have hread := readNumber_append negative h hfraction hscale hrest
      rw [numberValue_decimal negative hfraction hscale hsome] at hread
      rw [List.append_assoc] at hread
      rw [List.append_assoc, List.append_assoc (sign negative ++ _), hnumber negative h.toIsDigits,
        List.append_assoc]
      exact hread
  | @text cs s h =>
      have hlength : cs.length < size := by
        simp at hsize
        omega
      have hread := readString_append ('"' :: (cs ++ '"' :: rest)) h rest hlength []
      rw [List.reverse_nil, List.nil_append, String.ofList_toList] at hread
      simp [readValue, hread]
  | noItems | items | noMembers | members => exact absurd hflat id

end ImportAudit.Json
