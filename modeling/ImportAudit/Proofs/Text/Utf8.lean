/-
# ImportAudit.Proofs.Text.Utf8 — what is stored as a text is read as that text.

A character is stored as one to four bytes.  The first one tells how many follow and bounds the
second, by which every character has one form only (`leading?_eq`).  Reading these bytes gives the
character back, whatever stands behind them (`decodeFirst_encodeChar`), so a text is read as it was
stored (`decode_encode`).
-/
import ImportAudit.Text.Utf8
import Mathlib.Data.List.Basic

namespace ImportAudit.Text.Utf8

/-! ## One character -/

/-- What a first byte says, in numbers. -/
theorem leading?_eq (b : UInt8) : leading? b =
    if b.toNat ≤ 0x7F then some (0, 0x80, 0xBF, b.toNat)
    else if b.toNat < 0xC2 then none
    else if b.toNat ≤ 0xDF then some (1, 0x80, 0xBF, b.toNat - 0xC0)
    else if b.toNat = 0xE0 then some (2, 0xA0, 0xBF, 0)
    else if b.toNat = 0xED then some (2, 0x80, 0x9F, 0xD)
    else if b.toNat ≤ 0xEF then some (2, 0x80, 0xBF, b.toNat - 0xE0)
    else if b.toNat = 0xF0 then some (3, 0x90, 0xBF, 0)
    else if b.toNat ≤ 0xF3 then some (3, 0x80, 0xBF, b.toNat - 0xF0)
    else if b.toNat = 0xF4 then some (3, 0x80, 0x8F, 4)
    else none := by
  simp only [leading?, UInt8.le_iff_toNat_le, UInt8.lt_iff_toNat_lt, ← UInt8.toNat_inj,
    UInt8.reduceToNat]

/-- A byte that holds six bits of a number is taken if it is within the bounds, and the bits are
added. -/
theorem continued_bits {low high : UInt8} {m : Nat} (hlow : low.toNat ≤ m % 64 + 128)
    (hhigh : m % 64 + 128 ≤ high.toNat) (n value taken : Nat) (bs : List UInt8) :
    continued (n + 1) low high value taken (UInt8.ofNat (m % 64 + 128) :: bs) =
      continued n 0x80 0xBF (value * 64 + m % 64) (taken + 1) bs := by
  have hbyte : (UInt8.ofNat (m % 64 + 128)).toNat = m % 64 + 128 := by
    rw [UInt8.toNat_ofNat']
    omega
  have hbounds : (decide (low ≤ UInt8.ofNat (m % 64 + 128)) &&
      decide (UInt8.ofNat (m % 64 + 128) ≤ high)) = true := by
    simp only [UInt8.le_iff_toNat_le, hbyte, hlow, hhigh, decide_true, Bool.and_self]
  rw [continued, if_pos hbounds, hbyte, Nat.add_sub_cancel]

/-- The bounds that hold for all bytes behind the second. -/
theorem continued_rest (m n value taken : Nat) (bs : List UInt8) :
    continued (n + 1) 0x80 0xBF value taken (UInt8.ofNat (m % 64 + 128) :: bs) =
      continued n 0x80 0xBF (value * 64 + m % 64) (taken + 1) bs :=
  continued_bits (by simp) (by simp; omega) n value taken bs

theorem toNat_ofNat_of_lt {n : Nat} (h : n < 256) : (UInt8.ofNat n).toNat = n := by
  rw [UInt8.toNat_ofNat']
  omega

theorem decodeFirst_one {v : Nat} (h : v ≤ 0x7F) (rest : List UInt8) :
    decodeFirst (UInt8.ofNat v) rest = .ok (Char.ofNat v, 0) := by
  rw [decodeFirst, leading?_eq, toNat_ofNat_of_lt (by omega), if_pos h]
  rfl

theorem decodeFirst_two {v : Nat} (hlow : 0x7F < v) (hhigh : v ≤ 0x7FF) (rest : List UInt8) :
    decodeFirst (UInt8.ofNat (v / 64 % 32 + 192)) (UInt8.ofNat (v % 64 + 128) :: rest) =
      .ok (Char.ofNat v, 1) := by
  rw [decodeFirst, leading?_eq, toNat_ofNat_of_lt (by omega), if_neg (by omega), if_neg (by omega),
    if_pos (by omega)]
  dsimp only
  rw [continued_rest, continued]
  have hvalue : (v / 64 % 32 + 192 - 0xC0) * 64 + v % 64 = v := by omega
  rw [hvalue]

/-- The first byte of three tells what the number begins with, and keeps it from being one that two
bytes would do for, or one of a surrogate. -/
theorem leading?_three {v : Nat} (hlow : 0x7FF < v) (hhigh : v ≤ 0xFFFF)
    (hvalid : v < 0xD800 ∨ 0xDFFF < v) :
    ∃ low high : UInt8,
      leading? (UInt8.ofNat (v / 4096 % 16 + 224)) = some (2, low, high, v / 4096) ∧
      low.toNat ≤ v / 64 % 64 + 128 ∧ v / 64 % 64 + 128 ≤ high.toNat := by
  rw [leading?_eq, toNat_ofNat_of_lt (by omega), if_neg (by omega), if_neg (by omega),
    if_neg (by omega)]
  -- 0xE0 begins what would do with two bytes otherwise, and 0xED the surrogates
  split
  · exact ⟨_, _, by rw [show v / 4096 = 0 by omega], by simp; omega, by simp; omega⟩
  · split
    · exact ⟨_, _, by rw [show v / 4096 = 0xD by omega], by simp, by simp; omega⟩
    · rw [if_pos (by omega)]
      exact ⟨_, _, by rw [show v / 4096 % 16 + 224 - 0xE0 = v / 4096 by omega], by simp,
        by simp; omega⟩

theorem decodeFirst_three {v : Nat} (hlow : 0x7FF < v) (hhigh : v ≤ 0xFFFF)
    (hvalid : v < 0xD800 ∨ 0xDFFF < v) (rest : List UInt8) :
    decodeFirst (UInt8.ofNat (v / 4096 % 16 + 224))
        (UInt8.ofNat (v / 64 % 64 + 128) :: UInt8.ofNat (v % 64 + 128) :: rest) =
      .ok (Char.ofNat v, 2) := by
  obtain ⟨low, high, hleading, hsecond, hsecond'⟩ := leading?_three hlow hhigh hvalid
  rw [decodeFirst, hleading]
  dsimp only
  rw [continued_bits hsecond hsecond', continued_rest, continued]
  have hvalue : (v / 4096 * 64 + v / 64 % 64) * 64 + v % 64 = v := by omega
  rw [hvalue]

/-- The first byte of four keeps the number from being one that three bytes would do for, or one
beyond the last character. -/
theorem leading?_four {v : Nat} (hlow : 0xFFFF < v) (hhigh : v < 0x110000) :
    ∃ low high : UInt8,
      leading? (UInt8.ofNat (v / 262144 % 8 + 240)) = some (3, low, high, v / 262144) ∧
      low.toNat ≤ v / 4096 % 64 + 128 ∧ v / 4096 % 64 + 128 ≤ high.toNat := by
  rw [leading?_eq, toNat_ofNat_of_lt (by omega), if_neg (by omega), if_neg (by omega),
    if_neg (by omega), if_neg (by omega), if_neg (by omega), if_neg (by omega)]
  -- 0xF0 begins what would do with three bytes otherwise, and 0xF4 the last characters
  split
  · exact ⟨_, _, by rw [show v / 262144 = 0 by omega], by simp; omega, by simp; omega⟩
  · split
    · exact ⟨_, _, by rw [show v / 262144 % 8 + 240 - 0xF0 = v / 262144 by omega], by simp,
        by simp; omega⟩
    · rw [if_pos (by omega)]
      exact ⟨_, _, by rw [show v / 262144 = 4 by omega], by simp, by simp; omega⟩

theorem decodeFirst_four {v : Nat} (hlow : 0xFFFF < v) (hhigh : v < 0x110000)
    (rest : List UInt8) :
    decodeFirst (UInt8.ofNat (v / 262144 % 8 + 240))
        (UInt8.ofNat (v / 4096 % 64 + 128) :: UInt8.ofNat (v / 64 % 64 + 128) ::
          UInt8.ofNat (v % 64 + 128) :: rest) =
      .ok (Char.ofNat v, 3) := by
  obtain ⟨low, high, hleading, hsecond, hsecond'⟩ := leading?_four hlow hhigh
  rw [decodeFirst, hleading]
  dsimp only
  rw [continued_bits hsecond hsecond', continued_rest, continued_rest, continued]
  have hvalue : ((v / 262144 * 64 + v / 4096 % 64) * 64 + v / 64 % 64) * 64 + v % 64 = v := by
    omega
  rw [hvalue]

/-- The bytes of a character are read as the character, whatever stands behind them. -/
theorem decodeFirst_encodeChar (c : Char) (rest : List UInt8) :
    ∃ b bs, String.utf8EncodeChar c = b :: bs ∧
      decodeFirst b (bs ++ rest) = .ok (c, bs.length) := by
  have hvalid : c.val.toNat < 0xD800 ∨ 0xDFFF < c.val.toNat ∧ c.val.toNat < 0x110000 := c.valid
  have hchar : Char.ofNat c.val.toNat = c := Char.ofNat_toNat c
  unfold String.utf8EncodeChar
  dsimp only
  split
  · next h1 =>
      refine ⟨_, [], rfl, (decodeFirst_one h1 rest).trans ?_⟩
      rw [hchar]
      rfl
  · next h1 =>
      split
      · next h2 =>
          refine ⟨_, _, rfl, (decodeFirst_two (by omega) h2 rest).trans ?_⟩
          rw [hchar]
          rfl
      · next h2 =>
          split
          · next h3 =>
              refine ⟨_, _, rfl, (decodeFirst_three (by omega) h3 (by omega) rest).trans ?_⟩
              rw [hchar]
              rfl
          · next h3 =>
              refine ⟨_, _, rfl, (decodeFirst_four (by omega) (by omega) rest).trans ?_⟩
              rw [hchar]
              rfl

/-! ## Whole texts -/

theorem decodeFrom_encode (cs : List Char) (fuel position : Nat)
    (h : (cs.flatMap String.utf8EncodeChar).length ≤ fuel) :
    decodeFrom fuel position (cs.flatMap String.utf8EncodeChar) = .ok cs := by
  -- each character takes one of the steps, of which there are as many as bytes
  induction cs generalizing fuel position with
  | nil => cases fuel <;> rfl
  | cons c cs ih =>
      obtain ⟨b, bs, hc, hfirst⟩ := decodeFirst_encodeChar c (cs.flatMap String.utf8EncodeChar)
      rw [List.flatMap_cons, hc, List.cons_append] at h ⊢
      cases fuel with
      | zero => cases h
      | succ fuel =>
          rw [decodeFrom, hfirst]
          dsimp only
          have hfuel : (cs.flatMap String.utf8EncodeChar).length ≤ fuel := by
            simp only [List.length_cons, List.length_append] at h
            omega
          rw [List.drop_left, ih fuel _ hfuel]

theorem toList_loop_eq (bytes : ByteArray) (i : Nat) (done : List UInt8) :
    ByteArray.toList.loop bytes i done = done.reverse ++ bytes.data.toList.drop i := by
  fun_induction ByteArray.toList.loop bytes i done with
  | case1 i done h ih =>
      have hi : i < bytes.data.toList.length := by simpa using h
      rw [ih, List.drop_eq_getElem_cons hi]
      simp [ByteArray.get!, h]
  | case2 i done h =>
      rw [List.drop_eq_nil_of_le (by simpa using Nat.le_of_not_lt h), List.append_nil]

/-- A text is stored character by character. -/
theorem encode_eq_flatMap (text : String) :
    encode text = text.toList.flatMap String.utf8EncodeChar := by
  have hbytes : text.toUTF8 = (text.toList.flatMap String.utf8EncodeChar).toByteArray :=
    String.utf8Encode_toList.symm
  rw [encode, hbytes, ByteArray.toList, toList_loop_eq, List.toList_data_toByteArray]
  rfl

/-- A text is read as it was stored. -/
theorem decode_encode (text : String) : decode (encode text) = .ok text.toList := by
  rw [encode_eq_flatMap, decode]
  exact decodeFrom_encode text.toList _ 0 (Nat.le_refl _)

/-! ## Line ends -/

theorem unifyLines_cons {c : Char} (h : c ≠ '\r') (cs : List Char) :
    unifyLines (c :: cs) = c :: unifyLines cs := by
  conv_lhs => unfold unifyLines
  split
  · next heq => cases heq
  · next heq => cases heq; exact absurd rfl h
  · next heq => cases heq; exact absurd rfl h
  · next heq => cases heq; rfl

/-- Where every line ends in a line feed there is nothing to change. -/
theorem unifyLines_of_notMem {cs : List Char} (h : '\r' ∉ cs) : unifyLines cs = cs := by
  induction cs with
  | nil => rfl
  | cons c cs ih =>
      rw [List.mem_cons, not_or] at h
      rw [unifyLines_cons (Ne.symm h.1), ih h.2]

end ImportAudit.Text.Utf8
