/-
# ImportAudit.Proofs.Json.Bounds — what it takes to leave the bounds of the reader.

A text that is no JSON is malformed.  Beyond that the reader gives up only at an integer with too
many digits, all of which then stand in the text one after the other, and at an array or object that
lies too deep, up to which that many brackets were opened (`Within`).  Each part of the reader is
shown to leave an end of the text that it began with, and to give up for these reasons alone
(`Sound`); values follow by induction on how deep arrays and objects may still lie
(`readValue_sound`), and whole texts from these (`within_of_read`).  The bound on integers is one
that texts do go beyond (`read_longNumber`).
-/
import ImportAudit.Json.Reader
import Mathlib.Data.List.Infix
import Mathlib.Data.List.TakeWhile

namespace ImportAudit.Json

variable {α β : Type}

/-- The character opens an array or an object. -/
def opens (c : Char) : Bool := c == '[' || c == '{'

/-- The fault has its reason in the text, where arrays and objects may lie `depth` deep. -/
inductive Within (depth : Nat) (cs : List Char) : Fault → Prop
  | malformed (complaint : Complaint) (rest : List Char) :
      Within depth cs (.malformed complaint rest)
  | longInteger (ds : List Char) (stand : ds <:+: cs) (digits : ∀ d ∈ ds, d.isDigit = true)
      (long : maxDigits < ds.length) : Within depth cs (.longInteger ds.length)
  | tooDeep (array : Bool) (deep : depth < cs.countP opens) : Within depth cs (.tooDeep array)

/-- What has its reason in the end of a text has it in the text. -/
theorem Within.mono {depth : Nat} {cs ds : List Char} {f : Fault} (h : Within depth cs f)
    (hcs : cs <:+ ds) : Within depth ds f := by
  cases h with
  | malformed complaint rest => exact .malformed complaint rest
  | longInteger digits stand hdigits long =>
      exact .longInteger digits (stand.trans hcs.isInfix) hdigits long
  | tooDeep array deep =>
      exact .tooDeep array (Nat.lt_of_lt_of_le deep hcs.sublist.countP_le)

/-- One bracket further out, arrays and objects may lie one deeper. -/
theorem Within.inBrackets {depth : Nat} {cs : List Char} {f : Fault} (h : Within depth cs f)
    {c : Char} (hc : opens c = true) : Within (depth + 1) (c :: cs) f := by
  cases h with
  | malformed complaint rest => exact .malformed complaint rest
  | longInteger digits stand hdigits long =>
      exact .longInteger digits (stand.trans (List.suffix_cons c cs).isInfix) hdigits long
  | tooDeep array deep =>
      refine .tooDeep array ?_
      rw [List.countP_cons_of_pos hc]
      omega

/-- What is read of a text leaves an end of it, and a fault has its reason in it. -/
structure Sound (depth : Nat) (cs : List Char) (result : Except Fault (α × List Char)) : Prop where
  rest : ∀ {a rest}, result = .ok (a, rest) → rest <:+ cs
  fault : ∀ {f}, result = .error f → Within depth cs f

namespace Sound

variable {depth : Nat} {cs ds rest : List Char}

theorem ok {a : α} (h : rest <:+ cs) : Sound depth cs (.ok (a, rest)) where
  rest := fun heq => by cases heq; exact h
  fault := nofun

theorem malformed (complaint : Complaint) (rest : List Char) :
    Sound depth cs (.error (.malformed complaint rest) : Except Fault (α × List Char)) where
  rest := nofun
  fault := fun heq => by cases heq; exact .malformed complaint rest

theorem mono {result : Except Fault (α × List Char)} (h : Sound depth cs result)
    (hcs : cs <:+ ds) : Sound depth ds result where
  rest := fun heq => (h.rest heq).trans hcs
  fault := fun heq => (h.fault heq).mono hcs

/-- Where a part gives up, so does the whole. -/
theorem error {result : Except Fault (α × List Char)} {f : Fault} (h : Sound depth cs result)
    (hf : result = .error f) : Sound depth cs (.error f : Except Fault (β × List Char)) where
  rest := nofun
  fault := fun heq => by cases heq; exact h.fault hf

/-- What lies in brackets may go one deeper from outside of them. -/
theorem inBrackets {result : Except Fault (α × List Char)} (h : Sound depth cs result) {c : Char}
    (hc : opens c = true) : Sound (depth + 1) (c :: cs) result where
  rest := fun heq => (h.rest heq).trans (List.suffix_cons c cs)
  fault := fun heq => (h.fault heq).inBrackets hc

/-- An array or an object that lies too deep was opened. -/
theorem tooDeep (array : Bool) {c : Char} (hc : opens c = true) :
    Sound 0 (c :: cs) (.error (.tooDeep array) : Except Fault (α × List Char)) where
  rest := nofun
  fault := fun heq => by
    cases heq
    refine .tooDeep array ?_
    rw [List.countP_cons_of_pos hc]
    exact Nat.succ_pos _

end Sound

theorem skipBlank_suffix (cs : List Char) : skipBlank cs <:+ cs := List.dropWhile_suffix _

/-- What stands behind blanks and one more character is an end of the text. -/
theorem suffix_of_skipBlank {cs rest : List Char} {c : Char} (h : skipBlank cs = c :: rest) :
    rest <:+ cs :=
  (List.suffix_cons c rest).trans (h ▸ skipBlank_suffix cs)

/-! ## Strings -/

theorem readEscape_sound (depth : Nat) (cs : List Char) : Sound depth cs (readEscape cs) := by
  unfold readEscape
  split
  · next a b c d e rest =>
      -- the character behind the digits is looked at, but stays unread
      have htail : e :: rest <:+ 'u' :: a :: b :: c :: d :: e :: rest := ⟨['u', a, b, c, d], rfl⟩
      split
      · exact .malformed _ _
      · next n a' b' c' d' f rest' _ hpair =>
          have hlow : f :: rest' <:+ e :: rest := ⟨['\\', 'u', a', b', c', d'], hpair.symm⟩
          split
          · split
            · exact .malformed _ _
            · split
              · exact .ok (hlow.trans htail)
              · exact .ok htail
          · exact .ok htail
      · exact .ok htail
  · exact .malformed _ _
  · split
    · exact .ok (List.suffix_cons _ _)
    · exact .malformed _ _
  · exact .malformed _ _

theorem readString_sound (depth : Nat) (start : List Char) (fuel : Nat) (chars cs : List Char) :
    Sound depth cs (readString start fuel chars cs) := by
  induction fuel generalizing chars cs with
  | zero => exact .malformed _ _
  | succ fuel ih =>
      unfold readString
      split
      · exact .malformed _ _
      · exact .malformed _ _
      · exact .ok (List.suffix_cons _ _)
      · next rest _ =>
          have hescape := readEscape_sound depth rest
          split
          · next f hf => exact (hescape.error hf).mono (List.suffix_cons _ _)
          · next c rest' hc =>
              exact (ih _ _).mono ((hescape.rest hc).trans (List.suffix_cons _ _))
      · split
        · exact .malformed _ _
        · exact (ih _ _).mono (List.suffix_cons _ _)

/-! ## Numbers -/

theorem spanDigits_eq (cs : List Char) :
    spanDigits cs = (cs.takeWhile Char.isDigit, cs.dropWhile Char.isDigit) :=
  List.span_eq_takeWhile_dropWhile _ cs

theorem readFraction_suffix (cs : List Char) : (readFraction cs).2 <:+ cs := by
  unfold readFraction
  split
  · next rest =>
      rw [spanDigits_eq]
      split
      · exact List.suffix_rfl
      · next heq =>
          cases heq
          exact (List.dropWhile_suffix _).trans (List.suffix_cons _ _)
  · exact List.suffix_rfl

theorem readSign_suffix (cs : List Char) : (readSign cs).2 <:+ cs := by
  unfold readSign
  split
  · exact List.suffix_cons _ _
  · exact List.suffix_cons _ _
  · exact List.suffix_rfl

theorem readExponent_suffix (cs : List Char) : (readExponent cs).2 <:+ cs := by
  unfold readExponent
  split
  · next c rest =>
      split
      · dsimp only
        rw [spanDigits_eq]
        split
        · exact List.suffix_rfl
        · next heq =>
            cases heq
            exact ((List.dropWhile_suffix _).trans (readSign_suffix rest)).trans
              (List.suffix_cons _ _)
      · exact List.suffix_rfl
  · exact List.suffix_rfl

/-- The whole part of a number is made of digits, with which the text begins. -/
theorem readWhole_spec (cs : List Char) :
    (readWhole cs).1 ++ (readWhole cs).2 = cs ∧ ∀ d ∈ (readWhole cs).1, d.isDigit = true := by
  unfold readWhole
  split
  · exact ⟨rfl, by simp⟩
  · rw [spanDigits_eq]
    exact ⟨List.takeWhile_append_dropWhile, fun d hd => List.mem_takeWhile_imp hd⟩

theorem numberValue_fault {negative : Bool} {whole fraction : List Char} {exponent : Option Int}
    {f : Fault} (h : numberValue negative whole fraction exponent = .error f) :
    f = .longInteger whole.length ∧ maxDigits < whole.length := by
  unfold numberValue at h
  split at h
  · split at h
    · next hlong => cases h; exact ⟨rfl, hlong⟩
    · cases h
  · cases h

theorem readNumber_sound (depth : Nat) (cs : List Char) : Sound depth cs (readNumber cs) := by
  unfold readNumber
  -- the digits stand behind the sign, if there is one
  have hunsigned : (if cs.head? = some '-' then cs.tail else cs) <:+ cs := by
    split
    · exact List.tail_suffix cs
    · exact List.suffix_rfl
  obtain ⟨happend, hdigits⟩ := readWhole_spec (if cs.head? = some '-' then cs.tail else cs)
  dsimp only
  split
  · exact .malformed _ _
  · next whole rest _ hwhole =>
      rw [hwhole] at happend hdigits
      split
      · next f hf =>
          obtain ⟨rfl, hlong⟩ := numberValue_fault hf
          have hstand : whole <:+: cs := by
            refine List.IsInfix.trans ?_ hunsigned.isInfix
            rw [← happend]
            exact (List.prefix_append whole rest).isInfix
          exact ⟨nofun, fun heq => by cases heq; exact .longInteger whole hstand hdigits hlong⟩
      · have hrest : rest <:+ cs := by
          refine List.IsSuffix.trans ?_ hunsigned
          rw [← happend]
          exact List.suffix_append whole rest
        exact .ok (((readExponent_suffix _).trans (readFraction_suffix _)).trans hrest)

theorem readName?_suffix {cs rest : List Char} {v : Value} (h : readName? cs = some (v, rest)) :
    rest <:+ cs := by
  unfold readName? at h
  obtain ⟨⟨name, w⟩, -, hname⟩ := List.exists_of_findSome?_eq_some h
  dsimp only at hname
  split at hname
  · cases hname
    exact List.drop_suffix _ _
  · cases hname

/-! ## Arrays and objects -/

theorem readMemberName_sound (depth size : Nat) (cs : List Char) :
    Sound depth cs (readMemberName size cs) := by
  unfold readMemberName
  split
  · next rest =>
      have hstring := readString_sound depth ('"' :: rest) size [] rest
      refine Sound.mono ?_ (List.suffix_cons '"' rest)
      split
      · next f hf => exact hstring.error hf
      · next name rest' hname =>
          refine Sound.mono ?_ (hstring.rest hname)
          split
          · next rest'' hblank =>
              exact .ok ((skipBlank_suffix _).trans (suffix_of_skipBlank hblank))
          · exact .malformed _ _
  · exact .malformed _ _

section Nested

variable {depth : Nat} {readValue : List Char → Except Fault (Value × List Char)}
  (hread : ∀ cs, Sound depth cs (readValue cs))
include hread

theorem readItems_sound (fuel : Nat) (items : List Value) (cs : List Char) :
    Sound depth cs (readItems readValue fuel items cs) := by
  induction fuel generalizing items cs with
  | zero => exact .malformed _ _
  | succ fuel ih =>
      unfold readItems
      split
      · next f hf => exact (hread cs).error hf
      · next v rest hv =>
          refine Sound.mono ?_ ((hread cs).rest hv)
          split
          · next rest' hblank => exact .ok (suffix_of_skipBlank hblank)
          · next rest' hblank =>
              exact (ih _ _).mono ((skipBlank_suffix _).trans (suffix_of_skipBlank hblank))
          · exact .malformed _ _

theorem readMembers_sound (size fuel : Nat) (members : List (Value × Value)) (cs : List Char) :
    Sound depth cs (readMembers size readValue fuel members cs) := by
  induction fuel generalizing members cs with
  | zero => exact .malformed _ _
  | succ fuel ih =>
      have hname := readMemberName_sound depth size cs
      unfold readMembers
      split
      · next f hf => exact hname.error hf
      · next name rest hrest =>
          have hrest : rest <:+ cs := hname.rest hrest
          refine Sound.mono ?_ hrest
          split
          · next f hf => exact (hread rest).error hf
          · next v rest' hv =>
              refine Sound.mono ?_ ((hread rest).rest hv)
              dsimp only
              split
              · next rest'' hblank => exact .ok (suffix_of_skipBlank hblank)
              · next rest'' hblank =>
                  exact (ih _ _).mono ((skipBlank_suffix _).trans (suffix_of_skipBlank hblank))
              · exact .malformed _ _

end Nested

/-! ## Values -/

theorem readValue_sound (size depth : Nat) (cs : List Char) :
    Sound depth cs (readValue size depth cs) := by
  -- on how deep arrays and objects may lie, which is one less inside of brackets
  induction depth using Nat.strongRecOn generalizing cs with
  | ind depth ih =>
      unfold readValue
      split
      · exact .malformed _ _
      · next rest =>
          have hstring := readString_sound depth ('"' :: rest) size [] rest
          refine Sound.mono ?_ (List.suffix_cons '"' rest)
          split
          · next f hf => exact hstring.error hf
          · next hs => exact .ok (hstring.rest hs)
      · next rest =>
          split
          · exact .tooDeep true rfl
          · next depth =>
              refine Sound.inBrackets ?_ rfl
              split
              · next hblank => exact .ok (suffix_of_skipBlank hblank)
              · have hitems := (readItems_sound (ih depth (Nat.lt_succ_self depth)) size []
                  (skipBlank rest)).mono (skipBlank_suffix rest)
                split
                · next f hf => exact hitems.error hf
                · next hs => exact .ok (hitems.rest hs)
      · next rest =>
          split
          · exact .tooDeep false rfl
          · next depth =>
              refine Sound.inBrackets ?_ rfl
              split
              · next hblank => exact .ok (suffix_of_skipBlank hblank)
              · have hmembers := (readMembers_sound (ih depth (Nat.lt_succ_self depth)) size size []
                  (skipBlank rest)).mono (skipBlank_suffix rest)
                split
                · next f hf => exact hmembers.error hf
                · next hs => exact .ok (hmembers.rest hs)
      · split
        · next hname => exact .ok (readName?_suffix hname)
        · exact readNumber_sound depth cs

/-- A text that is not read is malformed, or it has an integer with too many digits, or brackets
that are opened more often than they may lie in one another. -/
theorem within_of_read {text : List Char} {f : Fault} (h : read text = .error f) :
    Within maxDepth text f := by
  unfold read at h
  split at h
  · cases h; exact .malformed _ _
  · have hvalue := readValue_sound (text.length + 1) maxDepth (skipBlank text)
    split at h
    · next hf => cases h; exact (hvalue.fault hf).mono (skipBlank_suffix text)
    · split at h
      · cases h
      · cases h; exact .malformed _ _

/-! ## An integer beyond the bounds -/

/-- An object with one member, an integer of so many digits. -/
def longNumber (digits : Nat) : List Char :=
  ['{', '"', 'n', '"', ':'] ++ (List.replicate digits '1' ++ ['}'])

theorem readName?_one (cs : List Char) : readName? ('1' :: cs) = none := by
  rfl

theorem readWhole_ones (m : Nat) : readWhole ('1' :: (List.replicate m '1' ++ ['}'])) =
    (List.replicate (m + 1) '1', ['}']) := by
  have hones : ∀ c ∈ List.replicate (m + 1) '1', c.isDigit = true := fun c hc => by
    rw [List.eq_of_mem_replicate hc]
    rfl
  show spanDigits (List.replicate (m + 1) '1' ++ ['}']) = _
  rw [spanDigits_eq, List.takeWhile_append_of_pos hones, List.dropWhile_append_of_pos hones]
  simp

theorem readNumber_ones {m : Nat} (h : maxDigits < m + 1) :
    readNumber ('1' :: (List.replicate m '1' ++ ['}'])) = .error (.longInteger (m + 1)) := by
  have hwhole := readWhole_ones m
  have hvalue : numberValue false (List.replicate (m + 1) '1') [] none =
      .error (.longInteger (m + 1)) := by
    unfold numberValue
    rw [if_pos ⟨rfl, rfl⟩, List.length_replicate, if_pos h]
  unfold readNumber
  rw [List.head?_cons]
  dsimp only
  rw [if_neg (by decide), hwhole]
  rw [List.replicate_succ] at hvalue ⊢
  have hsign : decide (some '1' = some '-') = false := by decide
  have hfraction : readFraction ['}'] = ([], ['}']) := rfl
  have hexponent : readExponent ['}'] = (none, ['}']) := rfl
  simp only [hsign, hfraction, hexponent, hvalue]

theorem readValue_longNumber {m : Nat} (h : maxDigits < m + 1) (size depth : Nat) :
    readValue (size + 2) (depth + 1) (longNumber (m + 1)) = .error (.longInteger (m + 1)) := by
  have hnumber : readValue (size + 2) depth ('1' :: (List.replicate m '1' ++ ['}'])) =
      .error (.longInteger (m + 1)) := by
    unfold readValue
    rw [readName?_one]
    exact readNumber_ones h
  have hname : readMemberName (size + 2)
      ('"' :: 'n' :: '"' :: ':' :: '1' :: (List.replicate m '1' ++ ['}'])) =
        .ok ("n", '1' :: (List.replicate m '1' ++ ['}'])) := rfl
  have hmembers : readMembers (size + 2) (readValue (size + 2) depth) (size + 2) []
      ('"' :: 'n' :: '"' :: ':' :: '1' :: (List.replicate m '1' ++ ['}'])) =
        .error (.longInteger (m + 1)) := by
    unfold readMembers
    rw [hname]
    dsimp only
    rw [hnumber]
  have hblank : skipBlank ('"' :: 'n' :: '"' :: ':' :: '1' :: (List.replicate m '1' ++ ['}'])) =
      '"' :: 'n' :: '"' :: ':' :: '1' :: (List.replicate m '1' ++ ['}']) := rfl
  have htext : longNumber (m + 1) =
      '{' :: '"' :: 'n' :: '"' :: ':' :: '1' :: (List.replicate m '1' ++ ['}']) := rfl
  rw [htext, readValue, hblank]
  split
  · next hclosed => cases hclosed
  · rw [hmembers]

theorem read_longNumber {digits : Nat} (h : maxDigits < digits) :
    read (longNumber digits) = .error (.longInteger digits) := by
  obtain ⟨m, rfl⟩ : ∃ m, digits = m + 1 := ⟨digits - 1, by omega⟩
  -- the text is longer than any number of steps it takes to come to the number
  have hblank : skipBlank (longNumber (m + 1)) = longNumber (m + 1) := rfl
  have hlength : (longNumber (m + 1)).length + 1 = m + 6 + 2 := by simp [longNumber]
  have hvalue : readValue ((longNumber (m + 1)).length + 1) maxDepth
      (skipBlank (longNumber (m + 1))) = .error (.longInteger (m + 1)) := by
    rw [hlength, hblank]
    exact readValue_longNumber h (m + 6) 989
  unfold read
  rw [if_neg (by simp [longNumber]), hvalue]

end ImportAudit.Json
