/-
# ImportAudit.Proofs.Specifier.Relative — which specifiers are paths.

A specifier is relative if one of two patterns matches at its beginning: one for dots, and one for
roots, drives and schemes (`isRelative_eq_begins`).  What the two patterns match is a plain
language: dots or a drive with nothing behind them but a line feed or a segment, a slash of either
kind, and a scheme with `://` behind it (`isRelative_recognises`).
-/
import ImportAudit.Proofs.Text.Pattern
import ImportAudit.Specifier
import Mathlib.Data.List.TakeWhile

namespace ImportAudit

namespace Specifier

open Text

/-! ## The language -/

/-- A letter of ASCII. -/
def IsAsciiLetter (c : Char) : Prop := 'A' ≤ c ∧ c ≤ 'Z' ∨ 'a' ≤ c ∧ c ≤ 'z'

/-- A character that may continue a scheme: one of a word, in any script, or one of three signs. -/
def IsSchemeChar (c : Char) : Prop := isWordPart c = true ∨ c = '+' ∨ c = '.' ∨ c = '-'

/-- A slash or a backslash. -/
def IsSlash (c : Char) : Prop := c = '/' ∨ c = '\\'

/-- What may stand behind dots or a drive: nothing, a line feed at the very end, or a slash and
anything. -/
inductive Onward : List Char → Prop
  | nothing : Onward []
  | lineFeed : Onward ['\n']
  | segment {c : Char} {rest : List Char} (h : IsSlash c) : Onward (c :: rest)

/-- The specifiers that are paths. -/
inductive IsPath : List Char → Prop
  | dot {rest : List Char} (h : Onward rest) : IsPath ('.' :: rest)
  | dots {rest : List Char} (h : Onward rest) : IsPath ('.' :: '.' :: rest)
  | root {c : Char} {rest : List Char} (h : IsSlash c) : IsPath (c :: rest)
  | drive {c : Char} {rest : List Char} (hc : IsAsciiLetter c) (h : Onward rest) :
      IsPath (c :: ':' :: rest)
  | scheme {c : Char} {name rest : List Char} (hc : IsAsciiLetter c)
      (hname : ∀ x ∈ name, IsSchemeChar x) : IsPath (c :: (name ++ ':' :: '/' :: '/' :: rest))

theorem onward_iff {cs : List Char} :
    Onward cs ↔ (cs = [] ∨ cs = ['\n']) ∨ ∃ c rest, IsSlash c ∧ cs = c :: rest := by
  constructor
  · intro h
    cases h with
    | nothing => exact .inl (.inl rfl)
    | lineFeed => exact .inl (.inr rfl)
    | segment h => exact .inr ⟨_, _, h, rfl⟩
  · rintro ((rfl | rfl) | ⟨c, rest, h, rfl⟩)
    · exact .nothing
    · exact .lineFeed
    · exact .segment h

/-! ## The patterns -/

/-- The end, or a slash of either kind: `$|[\\/]`. -/
def onwardPattern : Pattern := .either .finish (.one fun c => c == '\\' || c == '/')

/-- One dot or two: `\.\.?(?:$|[\\/])`. -/
def dottedPattern : Pattern :=
  .next (.one (· == '.')) (.next (.either (.one (· == '.')) .nothing) onwardPattern)

/-- The characters behind a scheme: `://`. -/
def authorityPattern : Pattern :=
  .next (.one (· == ':')) (.next (.one (· == '/')) (.one (· == '/')))

/-- A slash, a drive or a scheme: `[\\/]|[A-Za-z]:(?:$|[\\/])|[A-Za-z][\w+.-]*://`. -/
def rootedPattern : Pattern :=
  .either (.one fun c => c == '\\' || c == '/')
    (.either (.next (.one isLetter) (.next (.one (· == ':')) onwardPattern))
      (.next (.one isLetter) (.next (.many isSchemePart) authorityPattern)))

theorem isSlash_iff {c : Char} : (c == '\\' || c == '/') = true ↔ IsSlash c := by
  simp only [Bool.or_eq_true, beq_iff_eq, IsSlash]
  exact or_comm

theorem isLetter_iff {c : Char} : isLetter c = true ↔ IsAsciiLetter c := by
  have hupper : c.isUpper = true ↔ 'A' ≤ c ∧ c ≤ 'Z' := by
    rw [Char.le_def, Char.le_def]
    exact decide_eq_true_iff
  have hlower : c.isLower = true ↔ 'a' ≤ c ∧ c ≤ 'z' := by
    rw [Char.le_def, Char.le_def]
    exact Bool.and_eq_true_iff.trans (and_congr decide_eq_true_iff decide_eq_true_iff)
  exact Bool.or_eq_true_iff.trans (or_congr hupper hlower)

theorem isSchemePart_iff {c : Char} : isSchemePart c = true ↔ IsSchemeChar c := by
  simp only [isSchemePart, Bool.or_eq_true, beq_iff_eq, IsSchemeChar, or_assoc]

theorem exists_takes_onward_iff {cs : List Char} :
    (∃ rest, onwardPattern.Takes cs rest) ↔ Onward cs := by
  simp only [onwardPattern, Pattern.takes_either_iff, Pattern.takes_finish_iff,
    Pattern.takes_one_iff, isSlash_iff, exists_or, onward_iff]
  constructor
  · rintro (⟨_, h, -⟩ | ⟨rest, c, h⟩)
    · exact .inl h
    · exact .inr ⟨c, rest, h⟩
  · rintro (h | ⟨c, rest, h⟩)
    · exact .inl ⟨cs, h, rfl⟩
    · exact .inr ⟨rest, c, h⟩

theorem begins_dotted_iff {cs : List Char} : dottedPattern.begins cs = true ↔
    ∃ rest, Onward rest ∧ (cs = '.' :: rest ∨ cs = '.' :: '.' :: rest) := by
  simp only [Pattern.begins_iff, dottedPattern, Pattern.takes_next_iff, Pattern.takes_one_iff,
    Pattern.takes_either_iff, Pattern.takes_nothing_iff, beq_iff_eq]
  constructor
  · rintro ⟨left, behind, ⟨_, rfl, rfl⟩, rest, ⟨_, rfl, rfl⟩ | rfl, h⟩
    · exact ⟨rest, exists_takes_onward_iff.mp ⟨left, h⟩, .inr rfl⟩
    · exact ⟨behind, exists_takes_onward_iff.mp ⟨left, h⟩, .inl rfl⟩
  · rintro ⟨rest, honward, rfl | rfl⟩
    · obtain ⟨left, h⟩ := exists_takes_onward_iff.mpr honward
      exact ⟨left, rest, ⟨_, rfl, rfl⟩, rest, .inr rfl, h⟩
    · obtain ⟨left, h⟩ := exists_takes_onward_iff.mpr honward
      exact ⟨left, '.' :: rest, ⟨_, rfl, rfl⟩, rest, .inl ⟨_, rfl, rfl⟩, h⟩

theorem takes_authority_iff {cs rest : List Char} :
    authorityPattern.Takes cs rest ↔ cs = ':' :: '/' :: '/' :: rest := by
  simp only [authorityPattern, Pattern.takes_next_iff, Pattern.takes_one_iff, beq_iff_eq]
  constructor
  · rintro ⟨_, ⟨_, rfl, rfl⟩, _, ⟨_, rfl, rfl⟩, _, rfl, rfl⟩
    rfl
  · rintro rfl
    exact ⟨_, ⟨_, rfl, rfl⟩, _, ⟨_, rfl, rfl⟩, _, rfl, rfl⟩

theorem begins_rooted_iff {cs : List Char} : rootedPattern.begins cs = true ↔
    (∃ c rest, IsSlash c ∧ cs = c :: rest) ∨
      (∃ c rest, IsAsciiLetter c ∧ Onward rest ∧ cs = c :: ':' :: rest) ∨
        ∃ c name rest, IsAsciiLetter c ∧ (∀ x ∈ name, IsSchemeChar x) ∧
          cs = c :: (name ++ ':' :: '/' :: '/' :: rest) := by
  simp only [Pattern.begins_iff, rootedPattern, Pattern.takes_next_iff, Pattern.takes_one_iff,
    Pattern.takes_either_iff, Pattern.takes_many_iff, takes_authority_iff, isSlash_iff,
    isLetter_iff, isSchemePart_iff, beq_iff_eq]
  constructor
  · rintro ⟨left, ⟨c, hc, rfl⟩ | ⟨_, ⟨c, hc, rfl⟩, rest, ⟨_, rfl, rfl⟩, h⟩ |
      ⟨_, ⟨c, hc, rfl⟩, _, ⟨name, hname, rfl⟩, rfl⟩⟩
    · exact .inl ⟨c, left, hc, rfl⟩
    · exact .inr (.inl ⟨c, rest, hc, exists_takes_onward_iff.mp ⟨left, h⟩, rfl⟩)
    · exact .inr (.inr ⟨c, name, left, hc, hname, rfl⟩)
  · rintro (⟨c, rest, hc, rfl⟩ | ⟨c, rest, hc, honward, rfl⟩ | ⟨c, name, rest, hc, hname, rfl⟩)
    · exact ⟨rest, .inl ⟨c, hc, rfl⟩⟩
    · obtain ⟨left, h⟩ := exists_takes_onward_iff.mpr honward
      exact ⟨left, .inr (.inl ⟨_, ⟨c, hc, rfl⟩, rest, ⟨_, rfl, rfl⟩, h⟩)⟩
    · exact ⟨rest, .inr (.inr ⟨_, ⟨c, hc, rfl⟩, _, ⟨name, hname, rfl⟩, rfl⟩)⟩

/-- The specifiers that one of the patterns matches are those of the language. -/
theorem begins_iff_isPath {cs : List Char} :
    (dottedPattern.begins cs || rootedPattern.begins cs) = true ↔ IsPath cs := by
  rw [Bool.or_eq_true, begins_dotted_iff, begins_rooted_iff]
  constructor
  · rintro (⟨rest, h, rfl | rfl⟩ | ⟨c, rest, hc, rfl⟩ | ⟨c, rest, hc, h, rfl⟩ |
      ⟨c, name, rest, hc, hname, rfl⟩)
    · exact .dot h
    · exact .dots h
    · exact .root hc
    · exact .drive hc h
    · exact .scheme hc hname
  · intro h
    cases h with
    | dot h => exact .inl ⟨_, h, .inl rfl⟩
    | dots h => exact .inl ⟨_, h, .inr rfl⟩
    | root hc => exact .inr (.inl ⟨_, _, hc, rfl⟩)
    | drive hc h => exact .inr (.inr (.inl ⟨_, _, hc, h, rfl⟩))
    | scheme hc hname => exact .inr (.inr (.inr ⟨_, _, _, hc, hname, rfl⟩))

/-! ## Recognizing paths -/

theorem opensSegment_iff {cs : List Char} :
    opensSegment cs = true ↔ ∃ c rest, IsSlash c ∧ cs = c :: rest := by
  constructor
  · intro h
    unfold opensSegment at h
    split at h
    · exact ⟨_, _, .inl rfl, rfl⟩
    · exact ⟨_, _, .inr rfl, rfl⟩
    · cases h
  · rintro ⟨_, rest, rfl | rfl, rfl⟩ <;> rfl

theorem ends_iff {cs : List Char} : ends cs = true ↔ cs = [] ∨ cs = ['\n'] := by
  constructor
  · intro h
    unfold ends at h
    split at h
    · exact .inl rfl
    · exact .inr rfl
    · cases h
  · rintro (rfl | rfl) <;> rfl

theorem ends_or_opensSegment_iff {cs : List Char} :
    (ends cs || opensSegment cs) = true ↔ Onward cs := by
  rw [Bool.or_eq_true, ends_iff, opensSegment_iff, onward_iff]

theorem not_onward_dot (cs : List Char) : ¬Onward ('.' :: cs) := by
  intro h
  cases h with
  | segment h => rcases h with h | h <;> cases h

theorem isDotted_iff {cs : List Char} :
    isDotted cs = true ↔ ∃ rest, Onward rest ∧ (cs = '.' :: rest ∨ cs = '.' :: '.' :: rest) := by
  unfold isDotted
  split
  · next rest =>
    rw [ends_or_opensSegment_iff]
    constructor
    · exact fun h => ⟨rest, h, .inr rfl⟩
    · rintro ⟨_, h, heq | heq⟩
      · cases heq
        exact absurd h (not_onward_dot rest)
      · cases heq
        exact h
  · next rest hone =>
    rw [ends_or_opensSegment_iff]
    constructor
    · exact fun h => ⟨rest, h, .inl rfl⟩
    · rintro ⟨more, h, heq | heq⟩
      · cases heq
        exact h
      · cases heq
        exact absurd rfl (hone more)
  · next _ hnone =>
    constructor
    · intro h
      cases h
    · rintro ⟨rest, -, rfl | rfl⟩
      · exact absurd rfl (hnone rest)
      · exact absurd rfl (hnone ('.' :: rest))

theorem isDrive_iff {cs : List Char} :
    isDrive cs = true ↔ ∃ c rest, IsAsciiLetter c ∧ Onward rest ∧ cs = c :: ':' :: rest := by
  unfold isDrive
  split
  · next c rest =>
    rw [Bool.and_eq_true, isLetter_iff, ends_or_opensSegment_iff]
    constructor
    · exact fun h => ⟨c, rest, h.1, h.2, rfl⟩
    · rintro ⟨_, _, hc, h, heq⟩
      cases heq
      exact ⟨hc, h⟩
  · next hnone =>
    constructor
    · intro h
      cases h
    · rintro ⟨c, rest, -, -, rfl⟩
      exact absurd rfl (hnone c rest)

/-- The table of letters as one list, in which a character is found at once. -/
theorem letterBounds_eq : letterBounds =
    (letterBoundsPart1.toList ++ letterBoundsPart2.toList ++ letterBoundsPart3.toList ++
      letterBoundsPart4.toList ++ letterBoundsPart5.toList ++ letterBoundsPart6.toList ++
      letterBoundsPart7.toList).toArray := by
  simp only [letterBounds, ← Array.toList_append, Array.toArray_toList]

theorem not_isSchemePart_colon : isSchemePart ':' = false := by
  rw [isSchemePart, isWordPart, isAlphanumeric, letterBounds_eq]
  decide +kernel

/-- The characters of a scheme end at the colon, so that taking all of them is as good as trying. -/
theorem isPrefixOf_dropWhile_iff {cs : List Char} :
    "://".toList.isPrefixOf (cs.dropWhile isSchemePart) = true ↔
      ∃ name rest, (∀ x ∈ name, IsSchemeChar x) ∧ cs = name ++ ':' :: '/' :: '/' :: rest := by
  rw [List.isPrefixOf_iff_prefix]
  constructor
  · rintro ⟨rest, hrest⟩
    refine ⟨cs.takeWhile isSchemePart, rest, ?_, ?_⟩
    · intro x hx
      exact isSchemePart_iff.mp (List.mem_takeWhile_imp hx)
    · have hcs := List.takeWhile_append_dropWhile (p := isSchemePart) (l := cs)
      rw [← hrest] at hcs
      exact hcs.symm
  · rintro ⟨name, rest, hname, rfl⟩
    have hdrop : (name ++ ':' :: '/' :: '/' :: rest).dropWhile isSchemePart =
        ':' :: '/' :: '/' :: rest := by
      rw [List.dropWhile_append_of_pos fun x hx => isSchemePart_iff.mpr (hname x hx),
        List.dropWhile_cons_of_neg (by simp [not_isSchemePart_colon])]
    rw [hdrop]
    exact ⟨rest, rfl⟩

theorem hasScheme_iff {cs : List Char} :
    hasScheme cs = true ↔ ∃ c name rest, IsAsciiLetter c ∧ (∀ x ∈ name, IsSchemeChar x) ∧
      cs = c :: (name ++ ':' :: '/' :: '/' :: rest) := by
  cases cs with
  | nil => simp [hasScheme]
  | cons c cs =>
      rw [hasScheme, Bool.and_eq_true, isLetter_iff, isPrefixOf_dropWhile_iff]
      constructor
      · rintro ⟨hc, name, rest, hname, rfl⟩
        exact ⟨c, name, rest, hc, hname, rfl⟩
      · rintro ⟨_, name, rest, hc, hname, heq⟩
        cases heq
        exact ⟨hc, name, rest, hname, rfl⟩

/-- Relative specifiers are those that one of the two patterns matches. -/
theorem isRelative_eq_begins (text : String) : isRelative text =
    (dottedPattern.begins text.toList || rootedPattern.begins text.toList) := by
  rw [Bool.eq_iff_iff, Bool.or_eq_true, begins_dotted_iff, begins_rooted_iff, isRelative,
    Bool.or_eq_true, Bool.or_eq_true, Bool.or_eq_true, isDotted_iff, opensSegment_iff, isDrive_iff,
    hasScheme_iff, or_assoc, or_assoc]

/-- Relative specifiers are the paths of the language. -/
theorem isRelative_iff (text : String) : isRelative text = true ↔ IsPath text.toList := by
  rw [isRelative_eq_begins, begins_iff_isPath]

/-- The relative specifiers are the texts that one of the two patterns matches, and these are the
paths of the language and no others. -/
theorem isRelative_recognises (text : String) :
    isRelative text = (dottedPattern.begins text.toList || rootedPattern.begins text.toList) ∧
      (isRelative text = true ↔ IsPath text.toList) :=
  ⟨isRelative_eq_begins text, isRelative_iff text⟩

-- a line feed at the very end does not count behind dots and drives, and counts anywhere else
example : isRelative "..\n" = true ∧ isRelative "c:\n" = true ∧ isRelative ".\n." = false := by
  decide +kernel

example : isRelative ".hidden" = false ∧ isRelative "..." = false ∧ isRelative "1://a" = false := by
  decide +kernel

end Specifier

end ImportAudit
