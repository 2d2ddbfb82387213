/-
# ImportAudit.Proofs.Console.Lines — a text that fits stays in one line.

A line that takes no more cells than there are is printed as it is: its words are put back one behind
the other (`fillLines_wordsWithSpace`), because they take no more cells each by itself than they do
together (`cells_append_le`), and nothing hangs over.  So a text breaks at its line feeds and nowhere
else (`wrap_of_fits`).
-/
import ImportAudit.Console.Wrap
import Mathlib.Data.List.Basic
import Mathlib.Data.List.TakeWhile

namespace ImportAudit.Console

variable {cs : List Char} {width : Nat} {last : Option Char}

/-! ## Cells -/

theorem charCells_le (c : Char) : charCells c ≤ 2 := by
  unfold charCells
  dsimp only
  split
  · omega
  · split
    · omega
    · split <;> omega

/-- The cells that a selector adds to the last character that took any. -/
def widening : Option Char → Nat
  | some d => if Text.withinBounds widenedBounds d.toNat then 1 else 0
  | none => 0

theorem widening_le (last : Option Char) : widening last ≤ 1 := by
  cases last with
  | none => exact Nat.zero_le _
  | some d =>
      rw [widening]
      split <;> omega

section

variable {c : Char}

theorem cellsAfter_joinerLast (joiner : isJoiner c = true) (last : Option Char) :
    cellsAfter last [c] = 0 := if_pos joiner

/-- A joiner takes in the character behind it. -/
theorem cellsAfter_joiner (joiner : isJoiner c = true) (last : Option Char) (d : Char)
    (cs : List Char) : cellsAfter last (c :: d :: cs) = cellsAfter last cs := if_pos joiner

variable (joiner : ¬isJoiner c = true)
include joiner

theorem cellsAfter_selector (selector : isSelector c = true) (last : Option Char) (cs : List Char) :
    cellsAfter last (c :: cs) = widening last + cellsAfter none cs := by
  rw [cellsAfter.eq_def]
  cases last with
  | none => simp [joiner, selector, widening]
  | some d => simp [joiner, selector, widening]

theorem cellsAfter_zero (selector : ¬isSelector c = true) (zero : charCells c = 0)
    (last : Option Char) (cs : List Char) : cellsAfter last (c :: cs) = cellsAfter last cs := by
  rw [cellsAfter.eq_def]
  simp [joiner, selector, zero]

theorem cellsAfter_taking (selector : ¬isSelector c = true) (taking : ¬charCells c = 0)
    (last : Option Char) (cs : List Char) :
    cellsAfter last (c :: cs) = charCells c + cellsAfter (some c) cs := by
  rw [cellsAfter.eq_def]
  simp [joiner, selector, taking]

end

/-- The induction on a text by what its first character is. -/
@[elab_as_elim]
theorem cellsAfter_induction {motive : Option Char → List Char → Prop}
    (nil : ∀ last, motive last [])
    (joinerLast : ∀ last c, isJoiner c = true → motive last [c])
    (joiner : ∀ last c d cs, isJoiner c = true → motive last cs → motive last (c :: d :: cs))
    (selector : ∀ last c cs, ¬isJoiner c = true → isSelector c = true → motive none cs →
      motive last (c :: cs))
    (zero : ∀ last c cs, ¬isJoiner c = true → ¬isSelector c = true → charCells c = 0 →
      motive last cs → motive last (c :: cs))
    (taking : ∀ last c cs, ¬isJoiner c = true → ¬isSelector c = true → ¬charCells c = 0 →
      motive (some c) cs → motive last (c :: cs))
    (last : Option Char) (cs : List Char) : motive last cs := by
  induction last, cs using cellsAfter.induct with
  | case1 last => exact nil last
  | case2 last c hc => exact joinerLast last c hc
  | case3 last c hc d cs ih => exact joiner last c d cs hc ih
  | case4 c cs hc hs d ih => exact selector (some d) c cs hc hs ih
  | case5 c cs hc hs ih => exact selector none c cs hc hs ih
  | case6 last c cs hc hs hzero ih => exact zero last c cs hc hs hzero ih
  | case7 last c cs hc hs htaking ih => exact taking last c cs hc hs htaking ih

/-- No character takes more than two cells, a selector among them. -/
theorem cellsAfter_le (last : Option Char) (cs : List Char) :
    cellsAfter last cs ≤ 2 * cs.length := by
  induction last, cs using cellsAfter_induction with
  | nil last => exact Nat.zero_le _
  | joinerLast last c joiner =>
      rw [cellsAfter_joinerLast joiner]
      exact Nat.zero_le _
  | joiner last c d cs joiner ih =>
      rw [cellsAfter_joiner joiner, List.length_cons, List.length_cons]
      omega
  | selector last c cs joiner selector ih =>
      have := widening_le last
      rw [cellsAfter_selector joiner selector, List.length_cons]
      omega
  | zero last c cs joiner selector zero ih =>
      rw [cellsAfter_zero joiner selector zero, List.length_cons]
      omega
  | taking last c cs joiner selector taking ih =>
      have := charCells_le c
      rw [cellsAfter_taking joiner selector taking, List.length_cons]
      omega

theorem cells_le (cs : List Char) : cells cs ≤ 2 * cs.length := cellsAfter_le none cs

/-- A character that may be widened makes what follows it no narrower. -/
theorem cells_le_cellsAfter (last : Option Char) (cs : List Char) :
    cells cs ≤ cellsAfter last cs := by
  unfold cells
  induction last, cs using cellsAfter_induction with
  | nil last => exact Nat.le_refl _
  | joinerLast last c joiner =>
      rw [cellsAfter_joinerLast joiner]
      exact Nat.zero_le _
  | joiner last c d cs joiner ih => rwa [cellsAfter_joiner joiner, cellsAfter_joiner joiner]
  | selector last c cs joiner selector ih =>
      rw [cellsAfter_selector joiner selector, cellsAfter_selector joiner selector, widening]
      omega
  | zero last c cs joiner selector zero ih =>
      rwa [cellsAfter_zero joiner selector zero, cellsAfter_zero joiner selector zero]
  | taking last c cs joiner selector taking ih =>
      rw [cellsAfter_taking joiner selector taking, cellsAfter_taking joiner selector taking]

/-- A character that may be widened is so by one selector at most. -/
theorem cellsAfter_le_cells (last : Option Char) (cs : List Char) :
    cellsAfter last cs ≤ cells cs + widening last := by
  unfold cells
  induction last, cs using cellsAfter_induction with
  | nil last => exact Nat.zero_le _
  | joinerLast last c joiner =>
      rw [cellsAfter_joinerLast joiner]
      exact Nat.zero_le _
  | joiner last c d cs joiner ih => rwa [cellsAfter_joiner joiner, cellsAfter_joiner joiner]
  | selector last c cs joiner selector ih =>
      rw [cellsAfter_selector joiner selector, cellsAfter_selector joiner selector]
      omega
  | zero last c cs joiner selector zero ih =>
      rwa [cellsAfter_zero joiner selector zero, cellsAfter_zero joiner selector zero]
  | taking last c cs joiner selector taking ih =>
      rw [cellsAfter_taking joiner selector taking, cellsAfter_taking joiner selector taking]
      exact Nat.le_add_right _ _

theorem cellsAfter_append_left (last : Option Char) (xs ys : List Char) :
    cellsAfter last xs ≤ cellsAfter last (xs ++ ys) := by
  induction last, xs using cellsAfter_induction with
  | nil last => exact Nat.zero_le _
  | joinerLast last c joiner =>
      rw [cellsAfter_joinerLast joiner]
      exact Nat.zero_le _
  | joiner last c d cs joiner ih =>
      rwa [List.cons_append, List.cons_append, cellsAfter_joiner joiner, cellsAfter_joiner joiner]
  | selector last c cs joiner selector ih =>
      rw [List.cons_append, cellsAfter_selector joiner selector,
        cellsAfter_selector joiner selector]
      omega
  | zero last c cs joiner selector zero ih =>
      rwa [List.cons_append, cellsAfter_zero joiner selector zero,
        cellsAfter_zero joiner selector zero]
  | taking last c cs joiner selector taking ih =>
      rw [List.cons_append, cellsAfter_taking joiner selector taking,
        cellsAfter_taking joiner selector taking]
      omega

/-- The text does not end in a joiner, which would take in what comes behind it. -/
def EndsUnjoined (cs : List Char) : Prop := ∀ c, cs.getLast? = some c → isJoiner c = false

theorem EndsUnjoined.tail {c : Char} (h : EndsUnjoined (c :: cs)) : EndsUnjoined cs := by
  cases cs with
  | nil => nofun
  | cons d cs =>
      intro e he
      exact h e (by rwa [List.getLast?_cons_cons])

/-- Two texts take no more cells each by itself than they do together. -/
theorem cellsAfter_append_le {xs : List Char} (h : EndsUnjoined xs) (last : Option Char)
    (ys : List Char) : cellsAfter last xs + cells ys ≤ cellsAfter last (xs ++ ys) := by
  induction last, xs using cellsAfter_induction with
  | nil last =>
      rw [List.nil_append, cellsAfter, Nat.zero_add]
      exact cells_le_cellsAfter last ys
  | joinerLast last c joiner =>
      have hlast := h c rfl
      rw [joiner] at hlast
      cases hlast
  | joiner last c d cs joiner ih =>
      rw [List.cons_append, List.cons_append, cellsAfter_joiner joiner, cellsAfter_joiner joiner]
      exact ih h.tail.tail
  | selector last c cs joiner selector ih =>
      have := ih h.tail
      rw [List.cons_append, cellsAfter_selector joiner selector,
        cellsAfter_selector joiner selector]
      omega
  | zero last c cs joiner selector zero ih =>
      rw [List.cons_append, cellsAfter_zero joiner selector zero,
        cellsAfter_zero joiner selector zero]
      exact ih h.tail
  | taking last c cs joiner selector taking ih =>
      have := ih h.tail
      rw [List.cons_append, cellsAfter_taking joiner selector taking,
        cellsAfter_taking joiner selector taking]
      omega

theorem cells_append_le {xs : List Char} (h : EndsUnjoined xs) (ys : List Char) :
    cells xs + cells ys ≤ cells (xs ++ ys) := cellsAfter_append_le h none ys

theorem cellsAfter_space (last : Option Char) (cs : List Char) :
    cellsAfter last (' ' :: cs) = 1 + cellsAfter (some ' ') cs :=
  cellsAfter_taking (by decide) (by decide) (by decide) last cs

theorem cellsAfter_spaces (last : Option Char) (n : Nat) :
    cellsAfter last (List.replicate n ' ') = n := by
  induction n generalizing last with
  | zero => rfl
  | succ n ih =>
      rw [List.replicate_succ, cellsAfter_space, ih]
      omega

/-- Spaces behind a text take one cell each, but for one that a joiner takes in. -/
theorem cellsAfter_append_spaces (last : Option Char) (cs : List Char) (n : Nat) :
    cellsAfter last (cs ++ List.replicate n ' ') ≤ cellsAfter last cs + n := by
  induction last, cs using cellsAfter_induction with
  | nil last =>
      rw [List.nil_append, cellsAfter_spaces]
      exact Nat.le_add_left _ _
  | joinerLast last c joiner =>
      cases n with
      | zero => exact Nat.le_refl _
      | succ n =>
          rw [List.replicate_succ, List.cons_append, List.nil_append, cellsAfter_joiner joiner,
            cellsAfter_spaces]
          omega
  | joiner last c d cs joiner ih =>
      rwa [List.cons_append, List.cons_append, cellsAfter_joiner joiner, cellsAfter_joiner joiner]
  | selector last c cs joiner selector ih =>
      rw [List.cons_append, cellsAfter_selector joiner selector,
        cellsAfter_selector joiner selector]
      omega
  | zero last c cs joiner selector zero ih =>
      rwa [List.cons_append, cellsAfter_zero joiner selector zero,
        cellsAfter_zero joiner selector zero]
  | taking last c cs joiner selector taking ih =>
      rw [List.cons_append, cellsAfter_taking joiner selector taking,
        cellsAfter_taking joiner selector taking]
      omega

/-- No selector widens a space. -/
theorem cellsAfter_some_space (cs : List Char) : cellsAfter (some ' ') cs = cells cs := by
  have hspace : widening (some ' ') = 0 := by decide +kernel
  have hle := cellsAfter_le_cells (some ' ') cs
  rw [hspace] at hle
  exact Nat.le_antisymm hle (cells_le_cellsAfter (some ' ') cs)

/-! ## Filling up -/

theorem infix_fit {total : Nat} (h : cells cs ≤ total) : cs <:+: fit total cs := by
  rw [fit, if_pos h]
  exact (List.prefix_append _ _).isInfix

theorem cells_fit_le {total : Nat} (h : cells cs ≤ total) : cells (fit total cs) ≤ total := by
  rw [fit, if_pos h]
  have := cellsAfter_append_spaces none cs (total - cells cs)
  unfold cells at *
  omega

/-! ## White space -/

theorem isJoiner_of_isSpace {c : Char} (h : Text.isSpace c = true) : isJoiner c = false := by
  cases hj : isJoiner c with
  | false => rfl
  | true =>
      have hc : c = Char.ofNat 0x200D := by
        rw [← beq_iff_eq.mp hj, Char.ofNat_toNat]
      rw [hc] at h
      exact absurd h (by decide +kernel)

theorem trimRight_prefix (cs : List Char) : Text.trimRight cs <+: cs := by
  unfold Text.trimRight
  rw [← List.reverse_suffix, List.reverse_reverse]
  exact List.dropWhile_suffix _

theorem cells_trimRight_le (cs : List Char) : cells (Text.trimRight cs) ≤ cells cs := by
  obtain ⟨rest, hrest⟩ := trimRight_prefix cs
  have := cellsAfter_append_left none (Text.trimRight cs) rest
  rwa [hrest] at this

/-! ## Words -/

theorem endsUnjoined_append {xs ys : List Char} (hne : ys ≠ [])
    (hspace : ∀ c ∈ ys, Text.isSpace c = true) : EndsUnjoined (xs ++ ys) := by
  intro c hc
  rw [List.getLast?_append_of_ne_nil _ hne] at hc
  exact isJoiner_of_isSpace (hspace c (List.mem_of_getLast? hc))

/-- The text does not begin with white space. -/
def BeginsPlain (cs : List Char) : Prop := ∀ c, cs.head? = some c → Text.isSpace c = false

theorem beginsPlain_dropWhile (cs : List Char) : BeginsPlain (cs.dropWhile Text.isSpace) := by
  intro c hc
  have hhead := List.head?_dropWhile_not Text.isSpace cs
  rw [hc] at hhead
  exact hhead

/-- What is not white space only is a word, and the words behind it; the word ends in white space if
there is anything behind it. -/
theorem wordsWithSpace_cases (fuel : Nat) (cs : List Char) :
    (wordsWithSpace (fuel + 1) cs = [] ∧ cs.dropWhile Text.isSpace = []) ∨
      ∃ word rest, cs = word ++ rest ∧ word ≠ [] ∧ (rest ≠ [] → EndsUnjoined word) ∧
        BeginsPlain rest ∧ wordsWithSpace (fuel + 1) cs = word :: wordsWithSpace fuel rest := by
  cases cs with
  | nil => exact .inl ⟨rfl, rfl⟩
  | cons c cs =>
      rw [wordsWithSpace.eq_def]
      dsimp only
      have hplain := beginsPlain_dropWhile (c :: cs)
      generalize hlead : (c :: cs).takeWhile Text.isSpace = lead
      generalize hrest : (c :: cs).dropWhile Text.isSpace = rest at hplain
      generalize hcore : rest.takeWhile (fun c => !Text.isSpace c) = core
      generalize hbehind : rest.dropWhile (fun c => !Text.isSpace c) = behind
      have hall : c :: cs = lead ++ (core ++ behind) := by
        rw [← hcore, ← hbehind, List.takeWhile_append_dropWhile, ← hlead, ← hrest,
          List.takeWhile_append_dropWhile]
      cases rest with
      | nil =>
          subst hcore
          exact .inl ⟨rfl, rfl⟩
      | cons d ds =>
          have hcore' : core ≠ [] := by
            rw [← hcore, List.takeWhile_cons, hplain d rfl]
            exact List.cons_ne_nil _ _
          rw [if_neg hcore']
          refine .inr ⟨_, _, ?_, ?_, ?_, beginsPlain_dropWhile behind, rfl⟩
          · rw [hall, List.append_assoc, List.append_assoc, List.takeWhile_append_dropWhile]
          · simp [hcore']
          · intro hmore
            refine endsUnjoined_append ?_ fun d hd => List.mem_takeWhile_imp hd
            cases behind with
            | nil => exact absurd rfl hmore
            | cons e es =>
                have hhead := List.head?_dropWhile_not (fun c => !Text.isSpace c) (d :: ds)
                rw [hbehind] at hhead
                have he : Text.isSpace e = true := by simpa using hhead
                simp [he]

theorem flatten_of_beginsPlain (fuel : Nat) (cs : List Char) (hfuel : cs.length < fuel)
    (h : BeginsPlain cs) : (wordsWithSpace fuel cs).flatten = cs := by
  induction fuel generalizing cs with
  | zero => omega
  | succ fuel ih =>
      rcases wordsWithSpace_cases fuel cs with ⟨hnone, hblank⟩ | ⟨word, rest, rfl, hne, -, hrest,
        hwords⟩
      · rw [hnone]
        cases cs with
        | nil => rfl
        | cons c cs =>
            rw [List.dropWhile_cons, h c rfl] at hblank
            cases hblank
      · have hlength := List.length_pos_iff.mpr hne
        rw [List.length_append] at hfuel
        rw [hwords, List.flatten_cons, ih rest (by omega) hrest]

/-- The words of a text make up the text, unless it is white space only. -/
theorem flatten_wordsWithSpace (cs : List Char) (h : wordsWithSpace (cs.length + 1) cs ≠ []) :
    (wordsWithSpace (cs.length + 1) cs).flatten = cs := by
  rcases wordsWithSpace_cases cs.length cs with ⟨hnone, -⟩ | ⟨word, rest, hcs, hne, -, hrest,
    hwords⟩
  · exact absurd hnone h
  · have hlength := List.length_pos_iff.mpr hne
    have hsum := congrArg List.length hcs
    rw [List.length_append] at hsum
    rw [hwords, List.flatten_cons, flatten_of_beginsPlain _ rest (by omega) hrest, ← hcs]

/-! ## Lines -/

variable {overflow : Overflow}

theorem fillLines_of_fits {used : Nat} {word : List Char}
    (h : used + cells (Text.trimRight word) ≤ width) (line : List Char) (words : List (List Char)) :
    fillLines width overflow used line (word :: words) =
      fillLines width overflow (used + cells word) (line ++ word) words := by
  rw [fillLines.eq_def]
  exact if_pos h

/-- Words that fit together are put back one behind the other. -/
theorem fillLines_wordsWithSpace (fuel used : Nat) (line cs : List Char)
    (hfits : used + cells cs ≤ width) :
    fillLines width overflow used line (wordsWithSpace fuel cs) =
      [line ++ (wordsWithSpace fuel cs).flatten] := by
  induction fuel generalizing used line cs with
  | zero => simp [wordsWithSpace, fillLines]
  | succ fuel ih =>
      rcases wordsWithSpace_cases fuel cs with ⟨hnone, -⟩ | ⟨word, rest, rfl, -, hends, -, hwords⟩
      · simp [hnone, fillLines]
      · have hsum : cells word + cells rest ≤ cells (word ++ rest) := by
          cases rest with
          | nil => simp [cells, cellsAfter]
          | cons d ds => exact cells_append_le (hends (List.cons_ne_nil d ds)) _
        have hcore := cells_trimRight_le word
        rw [hwords, fillLines_of_fits (by omega), ih _ _ _ (by omega)]
        simp

theorem expandTabs_of_notMem (h : '\t' ∉ cs) : expandTabs cs = cs := by
  have hfrom : ∀ column, expandTabsFrom column cs = cs := by
    induction cs with
    | nil => exact fun _ => rfl
    | cons c cs ih =>
        obtain ⟨hc, hcs⟩ := not_or.mp (List.mem_cons.not.mp h)
        intro column
        rw [expandTabsFrom, if_neg (Ne.symm hc), ih hcs]
  exact hfrom 0

/-- The line has room on a width: in cells, and in characters unless it ends in none that could hang
over. -/
structure FitsIn (width : Nat) (cs : List Char) : Prop where
  cells : cells cs ≤ width
  noTab : '\t' ∉ cs
  noOverhang : cs.length ≤ width ∨ ∀ c, cs.getLast? = some c → Text.isSpace c = false

theorem FitsIn.dropOverhang (h : FitsIn width cs) : dropOverhang width cs = cs := by
  unfold Console.dropOverhang
  dsimp only
  rcases h.noOverhang with hlength | hends
  · rw [Nat.sub_eq_zero_of_le hlength, Nat.min_zero, Nat.sub_zero, List.take_length]
  · have hnone : cs.reverse.takeWhile Text.isSpace = [] := by
      rw [← List.head?_reverse] at hends
      cases hrev : cs.reverse with
      | nil => rfl
      | cons c rest =>
          rw [hrev] at hends
          rw [List.takeWhile_cons, hends c rfl]
          rfl
    simp [hnone]

theorem FitsIn.crop (h : FitsIn width cs) : crop width overflow cs = cs := if_pos h.cells

/-- A line that has room is not broken. -/
theorem FitsIn.wrapLine (h : FitsIn width cs) : wrapLine width overflow cs = [cs] := by
  unfold Console.wrapLine
  rw [expandTabs_of_notMem h.noTab]
  have hcells : 0 + Console.cells cs ≤ width := by simpa using h.cells
  dsimp only
  split
  · rw [List.map_singleton, h.dropOverhang, h.crop]
  · next hwords =>
      rw [fillLines_wordsWithSpace _ _ _ _ hcells, flatten_wordsWithSpace cs hwords,
        List.nil_append, List.map_singleton, h.dropOverhang, h.crop]

/-- A text all of whose lines have room is broken at its line feeds only. -/
theorem wrap_of_fits {text : List Char}
    (h : ∀ line ∈ Text.splitOn '\n' text, FitsIn width line) :
    wrap width overflow text = Text.splitOn '\n' text := by
  unfold wrap
  generalize Text.splitOn '\n' text = lines at h
  induction lines with
  | nil => rfl
  | cons line lines ih =>
      rw [List.flatMap_cons, (h line List.mem_cons_self).wrapLine,
        ih fun l hl => h l (List.mem_cons_of_mem line hl)]
      rfl

/-! ## Line feeds -/

theorem splitOn_ne_nil (sep : Char) (text : List Char) : Text.splitOn sep text ≠ [] := by
  cases text with
  | nil => exact List.cons_ne_nil _ _
  | cons c cs =>
      rw [Text.splitOn]
      split
      · exact List.cons_ne_nil _ _
      · split <;> exact List.cons_ne_nil _ _

theorem splitOn_of_notMem {sep : Char} {text : List Char} (h : sep ∉ text) :
    Text.splitOn sep text = [text] := by
  induction text with
  | nil => rfl
  | cons c cs ih =>
      obtain ⟨hc, hcs⟩ := not_or.mp (List.mem_cons.not.mp h)
      rw [Text.splitOn, ih hcs]
      exact if_neg (Ne.symm hc)

/-- The lines of a text are the text again when each has its line feed. -/
theorem joinLines_splitOn (text : List Char) :
    joinLines (Text.splitOn '\n' text) = String.ofList (text ++ ['\n']) := by
  unfold joinLines
  congr 1
  induction text with
  | nil => rfl
  | cons c cs ih =>
      rw [Text.splitOn]
      cases hpieces : Text.splitOn '\n' cs with
      | nil => exact absurd hpieces (splitOn_ne_nil _ _)
      | cons piece pieces =>
          rw [hpieces] at ih
          dsimp only
          split
          · next hc =>
              subst hc
              rw [List.flatMap_cons, ih]
              rfl
          · rw [List.flatMap_cons] at ih ⊢
            rw [List.cons_append, List.cons_append, ih, List.cons_append]

end ImportAudit.Console
