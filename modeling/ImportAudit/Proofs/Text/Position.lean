/-
# ImportAudit.Proofs.Text.Position — where an offset lies in a text.

Lines and columns are found by halving in the table of line starts.  Here they are tied to the text
itself: the line of an offset is one more than the number of line feeds before it
(`lineAndColumn_fst`), and the column is its distance from the last of these (`lineAndColumn_snd`).
From that it follows that lines and columns grow with the offset in lexicographic order
(`lineAndColumn_lt`).  Byte offsets lead back to the offsets they came from
(`charOffset_byteOffset`).
-/
import ImportAudit.Text.Position
import Mathlib.Data.List.Basic

namespace ImportAudit.Text

/-! ## Halving -/

/-- What halving knows of the bounds: those before `lo` are at most `n`, and those from `hi` on are
beyond it. -/
structure Narrowed (bounds : List Nat) (n lo hi : Nat) : Prop where
  le : lo ≤ hi
  within : hi ≤ bounds.length
  below : ∀ b ∈ bounds.take lo, b ≤ n
  above : ∀ b ∈ bounds.drop hi, n < b

theorem Narrowed.whole (bounds : List Nat) (n : Nat) : Narrowed bounds n 0 bounds.length where
  le := Nat.zero_le _
  within := Nat.le_refl _
  below := by simp
  above := by simp

/-- In a sorted list, an entry that is at most `n` has only such entries up to it. -/
theorem forall_mem_take_succ_le {bounds : List Nat} (hs : bounds.Pairwise (· < ·)) {n i : Nat}
    (hi : i < bounds.length) (h : bounds[i] ≤ n) : ∀ b ∈ bounds.take (i + 1), b ≤ n := by
  intro b hb
  obtain ⟨j, hj, rfl⟩ := List.mem_take_iff_getElem.1 hb
  rcases Nat.lt_or_ge j i with hji | hji
  · have hlt : bounds[j] < bounds[i] := List.pairwise_iff_getElem.1 hs j i _ hi hji
    omega
  · obtain rfl : j = i := by omega
    exact h

/-- In a sorted list, an entry beyond `n` has only such entries from it on. -/
theorem forall_mem_drop_lt {bounds : List Nat} (hs : bounds.Pairwise (· < ·)) {n i : Nat}
    (hi : i < bounds.length) (h : n < bounds[i]) : ∀ b ∈ bounds.drop i, n < b := by
  intro b hb
  obtain ⟨j, hj, rfl⟩ := List.mem_drop_iff_getElem.1 hb
  rcases Nat.eq_zero_or_pos j with rfl | hpos
  · exact h
  · exact Nat.lt_trans h (List.pairwise_iff_getElem.1 hs i (i + j) hi (by omega) (by omega))

/-- Halving keeps what is known, until no entry is left in doubt. -/
theorem rankBetween_narrowed {bounds : List Nat} (hs : bounds.Pairwise (· < ·)) {n : Nat} :
    ∀ {fuel lo hi : Nat}, Narrowed bounds n lo hi → hi - lo < fuel →
      Narrowed bounds n (rankBetween bounds.toArray n fuel lo hi)
        (rankBetween bounds.toArray n fuel lo hi)
  | 0, _, _, _, hf => absurd hf (Nat.not_lt_zero _)
  | fuel + 1, lo, hi, h, hf => by
      unfold rankBetween
      by_cases hlt : lo < hi
      · have hin : (lo + hi) / 2 < bounds.length := by
          have := h.within
          omega
        have hget : bounds.toArray[(lo + hi) / 2]?.getD 0 = bounds[(lo + hi) / 2] := by
          simp [hin]
        simp only [if_pos hlt, hget]
        -- the entry in the middle settles the half that it ends or begins
        split
        · next hbeyond =>
          refine rankBetween_narrowed hs ⟨by omega, by omega, h.below, ?_⟩ (by omega)
          exact forall_mem_drop_lt hs hin hbeyond
        · next hbelow =>
          refine rankBetween_narrowed hs ⟨by omega, h.within, ?_, h.above⟩ (by omega)
          exact forall_mem_take_succ_le hs hin (by omega)
      · obtain rfl : hi = lo := by
          have := h.le
          omega
        rw [if_neg hlt]
        exact h

/-- Halving counts the entries that are at most `n`. -/
theorem rank_eq_countP {bounds : List Nat} (hs : bounds.Pairwise (· < ·)) (n : Nat) :
    rank bounds.toArray n = bounds.countP (· ≤ n) := by
  have h : Narrowed bounds n (rank bounds.toArray n) (rank bounds.toArray n) :=
    rankBetween_narrowed hs (Narrowed.whole bounds n) (Nat.lt_succ_self _)
  have hall : (bounds.take (rank bounds.toArray n)).countP (· ≤ n) = rank bounds.toArray n := by
    have hlen : (bounds.take (rank bounds.toArray n)).length = rank bounds.toArray n :=
      List.length_take_of_le h.within
    conv_rhs => rw [← hlen]
    rw [List.countP_eq_length]
    intro b hb
    simpa using h.below b hb
  have hnone : (bounds.drop (rank bounds.toArray n)).countP (· ≤ n) = 0 := by
    rw [List.countP_eq_zero]
    intro b hb
    simpa using h.above b hb
  rw [← List.take_append_drop (rank bounds.toArray n) bounds, List.countP_append,
    List.take_append_drop, hall, hnone, Nat.add_zero]

/-! ## The table of line starts -/

theorem lt_of_mem_lineStartsFrom {text : List Char} {i b : Nat} (h : b ∈ lineStartsFrom i text) :
    i < b := by
  induction text generalizing i with
  | nil => cases h
  | cons c cs ih =>
      have htail : b ∈ lineStartsFrom (i + 1) cs → i < b := fun hb => Nat.lt_of_succ_lt (ih hb)
      unfold lineStartsFrom at h
      split at h
      · rcases List.mem_cons.1 h with rfl | hb
        · exact Nat.lt_succ_self i
        · exact htail hb
      · exact htail h

theorem pairwise_lineStartsFrom (text : List Char) (i : Nat) :
    (lineStartsFrom i text).Pairwise (· < ·) := by
  induction text generalizing i with
  | nil => exact List.Pairwise.nil
  | cons c cs ih =>
      unfold lineStartsFrom
      split
      · exact List.Pairwise.cons (fun b hb => lt_of_mem_lineStartsFrom hb) (ih (i + 1))
      · exact ih (i + 1)

theorem pairwise_lineStarts (text : List Char) : (lineStarts text).Pairwise (· < ·) :=
  List.Pairwise.cons (fun _ hb => lt_of_mem_lineStartsFrom hb) (pairwise_lineStartsFrom text 0)

/-- As many lines start behind `i` and up to `n` as there are line feeds in between. -/
theorem countP_lineStartsFrom (text : List Char) (n i : Nat) :
    (lineStartsFrom i text).countP (· ≤ n) = (text.take (n - i)).count '\n' := by
  induction text generalizing i with
  | nil => simp [lineStartsFrom]
  | cons c cs ih =>
      rcases Nat.lt_or_ge i n with hin | hin
      · have hstep : n - i = n - (i + 1) + 1 := by omega
        rw [hstep, List.take_succ_cons, List.count_cons, ← ih (i + 1), lineStartsFrom]
        by_cases hc : c = '\n'
        · simp [hc, Nat.succ_le_of_lt hin]
        · simp [hc]
      · have hzero : n - i = 0 := by omega
        rw [hzero, List.take_zero, List.count_nil, List.countP_eq_zero]
        intro b hb
        have hlt := lt_of_mem_lineStartsFrom hb
        simp only [decide_eq_true_eq]
        omega

/-- A line feed starts a line behind it, and the line feeds before it count the lines before that
one. -/
theorem lineStartsFrom_getElem? {text : List Char} {k : Nat} (h : text[k]? = some '\n') (i : Nat) :
    (lineStartsFrom i text)[(text.take k).count '\n']? = some (i + k + 1) := by
  induction text generalizing k i with
  | nil => simp at h
  | cons c cs ih =>
      cases k with
      | zero =>
          obtain rfl : c = '\n' := by simpa using h
          simp [lineStartsFrom]
      | succ k =>
          have hrest := ih (by simpa using h) (i + 1)
          have hoff : i + (k + 1) + 1 = i + 1 + k + 1 := by omega
          rw [List.take_succ_cons, List.count_cons, hoff, ← hrest, lineStartsFrom]
          by_cases hc : c = '\n'
          · simp [hc]
          · simp [hc]

/-- Texts of one length that break their lines at the same places have the same line starts. -/
theorem lineStartsFrom_congr {text text' : List Char} (hlength : text'.length = text.length)
    (hbreaks : ∀ k < text.length, text'[k]? = some '\n' ↔ text[k]? = some '\n') (i : Nat) :
    lineStartsFrom i text' = lineStartsFrom i text := by
  induction text generalizing text' i with
  | nil =>
      obtain rfl : text' = [] := List.length_eq_zero_iff.1 hlength
      rfl
  | cons c cs ih =>
      obtain ⟨c', cs', rfl⟩ : ∃ c' cs', text' = c' :: cs' :=
        List.exists_cons_of_length_eq_add_one hlength
      have hhead : c' = '\n' ↔ c = '\n' := by simpa using hbreaks 0 (by simp)
      have htail : lineStartsFrom (i + 1) cs' = lineStartsFrom (i + 1) cs := by
        refine ih (by simpa using hlength) (fun k hk => ?_) (i + 1)
        simpa using hbreaks (k + 1) (by simpa using hk)
      simp only [lineStartsFrom, htail, hhead]

/-! ## Lines and columns -/

/-- The offset of the last line feed among the first `i` characters, `-1` if there is none. -/
def lastLineFeed (text : List Char) : Nat → Int
  | 0 => -1
  | i + 1 => if text[i]? = some '\n' then i else lastLineFeed text i

theorem lastLineFeed_lt (text : List Char) (i : Nat) : lastLineFeed text i < i := by
  induction i with
  | zero =>
      show (-1 : Int) < 0
      decide
  | succ i ih =>
      unfold lastLineFeed
      split <;> omega

theorem count_take_succ (text : List Char) (i : Nat) :
    (text.take (i + 1)).count '\n' =
      (text.take i).count '\n' + if text[i]? = some '\n' then 1 else 0 := by
  rw [List.take_add_one, List.count_append]
  cases text[i]? with
  | none => simp
  | some c => by_cases hc : c = '\n' <;> simp [hc]

/-- The line of an offset starts behind the last line feed before the offset. -/
theorem lineStarts_getElem? (text : List Char) (i : Nat) :
    ((lineStarts text)[(text.take i).count '\n']?).map (fun b : Nat => (b : Int)) =
      some (lastLineFeed text i + 1) := by
  induction i with
  | zero => simp [lineStarts, lastLineFeed]
  | succ i ih =>
      rw [count_take_succ, lastLineFeed]
      by_cases h : text[i]? = some '\n'
      · have hnext := lineStartsFrom_getElem? h 0
        simp [h, lineStarts, hnext]
      · simpa [h] using ih

/-- The line of an offset is one more than the number of line feeds before it. -/
theorem lineAndColumn_fst (text : List Char) (i : Nat) :
    (lineAndColumn (lineStarts text).toArray i).1 = 1 + (text.take i).count '\n' := by
  unfold lineAndColumn
  rw [rank_eq_countP (pairwise_lineStarts text), lineStarts, List.countP_cons,
    countP_lineStartsFrom]
  simp [Nat.add_comm]

/-- The column of an offset is its distance from the last line feed before it. -/
theorem lineAndColumn_snd (text : List Char) (i : Nat) :
    ((lineAndColumn (lineStarts text).toArray i).2 : Int) = i - lastLineFeed text i := by
  have hline := lineAndColumn_fst text i
  have hstart := lineStarts_getElem? text i
  have hlt := lastLineFeed_lt text i
  -- the entry of the table that the line leads to is the start of the line
  unfold lineAndColumn at hline ⊢
  dsimp only at hline ⊢
  rw [hline, Nat.add_sub_cancel_left, List.getElem?_toArray]
  obtain ⟨b, hb, hval⟩ := Option.map_eq_some_iff.1 hstart
  rw [hb, Option.getD_some]
  omega

/-- Further on in a text the line is greater, or it is the same and so is the last line feed. -/
theorem count_lt_or_lastLineFeed_eq (text : List Char) {i j : Nat} (h : i ≤ j) :
    (text.take i).count '\n' < (text.take j).count '\n' ∨
      (text.take i).count '\n' = (text.take j).count '\n' ∧
        lastLineFeed text i = lastLineFeed text j := by
  induction h with
  | refl => exact .inr ⟨rfl, rfl⟩
  | @step j _ ih =>
      rw [count_take_succ, lastLineFeed]
      split
      · omega
      · simpa using ih

/-- Lines and columns grow with the offset in lexicographic order. -/
theorem lineAndColumn_lt (text : List Char) {i j : Nat} (h : i < j) :
    let p := lineAndColumn (lineStarts text).toArray i
    let q := lineAndColumn (lineStarts text).toArray j
    p.1 < q.1 ∨ p.1 = q.1 ∧ p.2 < q.2 := by
  have hline := count_lt_or_lastLineFeed_eq text (Nat.le_of_lt h)
  have hi := lineAndColumn_snd text i
  have hj := lineAndColumn_snd text j
  dsimp only
  rw [lineAndColumn_fst, lineAndColumn_fst]
  omega

/-! ## Bytes -/

/-- The byte offset of a character leads back to the character. -/
theorem charOffset_byteOffset {text : List Char} {i : Nat} (h : i ≤ text.length) :
    charOffset text (byteOffset text i) = i := by
  induction text generalizing i with
  | nil =>
      obtain rfl : i = 0 := by simpa using h
      rfl
  | cons c cs ih =>
      cases i with
      | zero =>
          have hpos : ¬c.utf8Size ≤ 0 := by
            have := c.utf8Size_pos
            omega
          rw [byteOffset, charOffset, if_neg hpos]
          simp
      | succ i =>
          have hrest := ih (i := i) (by simpa using h)
          have hle : c.utf8Size ≤ c.utf8Size + byteOffset cs i := Nat.le_add_right _ _
          simp only [byteOffset, charOffset, if_pos hle, Nat.add_sub_cancel_left, hrest]

end ImportAudit.Text
