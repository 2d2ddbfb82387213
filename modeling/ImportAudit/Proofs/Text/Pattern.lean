/-
# ImportAudit.Proofs.Text.Pattern — patterns that a text begins with.

A pattern is tried at the beginning of a text.  Each part of it takes characters and hands the rest
to what comes after it; a repetition takes as many characters as it can and gives them back one by
one while the rest is refused, and a choice turns to its second branch when the first one leads
nowhere.  What a pattern may take is said once more as a relation that knows no order of trying,
and trying finds a way exactly if there is one (`tries_iff`).
-/
import Mathlib.Data.List.Basic

namespace ImportAudit.Text

/-- A pattern: nothing, one character of a class, any number of characters of a class, the end of
the text (before which one line feed does not count), one pattern after another, or one of two. -/
inductive Pattern
  | nothing
  | one (p : Char → Bool)
  | many (p : Char → Bool)
  | finish
  | next (first second : Pattern)
  | either (first second : Pattern)

namespace Pattern

/-! ## Trying -/

/-- The text is at its end, or at the line feed before it. -/
def atEnd (cs : List Char) : Bool := cs == [] || cs == ['\n']

/-- Takes as many characters of the class as lead to a rest that is accepted: first all of them, and
then ever fewer. -/
def triesMany (p : Char → Bool) (accepts : List Char → Bool) : List Char → Bool
  | [] => accepts []
  | c :: cs => p c && triesMany p accepts cs || accepts (c :: cs)

/-- Whether the pattern can take characters at the beginning of the text so that the rest is
accepted. -/
def tries : Pattern → (List Char → Bool) → List Char → Bool
  | nothing, accepts, cs => accepts cs
  | one _, _, [] => false
  | one p, accepts, c :: cs => p c && accepts cs
  | many p, accepts, cs => triesMany p accepts cs
  | finish, accepts, cs => atEnd cs && accepts cs
  | next a b, accepts, cs => a.tries (b.tries accepts) cs
  | either a b, accepts, cs => a.tries accepts cs || b.tries accepts cs

/-- The text begins with the pattern. -/
def begins (a : Pattern) (cs : List Char) : Bool := a.tries (fun _ => true) cs

/-! ## What a pattern may take -/

/-- The pattern may take what stands before the rest of the text. -/
inductive Takes : Pattern → List Char → List Char → Prop
  | nothing {cs} : Takes .nothing cs cs
  | one {p c cs} (h : p c = true) : Takes (.one p) (c :: cs) cs
  | many {p taken rest} (h : ∀ c ∈ taken, p c = true) : Takes (.many p) (taken ++ rest) rest
  | finish {cs} (h : cs = [] ∨ cs = ['\n']) : Takes .finish cs cs
  | next {a b cs mid rest} (first : Takes a cs mid) (second : Takes b mid rest) :
      Takes (.next a b) cs rest
  | first {a b cs rest} (h : Takes a cs rest) : Takes (.either a b) cs rest
  | second {a b cs rest} (h : Takes b cs rest) : Takes (.either a b) cs rest

variable {a b : Pattern} {p : Char → Bool} {accepts : List Char → Bool} {cs rest : List Char}

theorem takes_nothing_iff : Takes .nothing cs rest ↔ cs = rest :=
  ⟨fun h => by cases h; rfl, fun h => h ▸ .nothing⟩

theorem takes_one_iff : Takes (.one p) cs rest ↔ ∃ c, p c = true ∧ cs = c :: rest := by
  constructor
  · intro h
    cases h with
    | one h => exact ⟨_, h, rfl⟩
  · rintro ⟨c, h, rfl⟩
    exact .one h

theorem takes_many_iff :
    Takes (.many p) cs rest ↔ ∃ taken, (∀ c ∈ taken, p c = true) ∧ cs = taken ++ rest := by
  constructor
  · intro h
    cases h with
    | many h => exact ⟨_, h, rfl⟩
  · rintro ⟨taken, h, rfl⟩
    exact .many h

theorem takes_finish_iff : Takes .finish cs rest ↔ (cs = [] ∨ cs = ['\n']) ∧ cs = rest := by
  constructor
  · intro h
    cases h with
    | finish h => exact ⟨h, rfl⟩
  · rintro ⟨h, rfl⟩
    exact .finish h

theorem takes_next_iff : Takes (.next a b) cs rest ↔ ∃ mid, Takes a cs mid ∧ Takes b mid rest := by
  constructor
  · intro h
    cases h with
    | next first second => exact ⟨_, first, second⟩
  · rintro ⟨mid, first, second⟩
    exact .next first second

theorem takes_either_iff : Takes (.either a b) cs rest ↔ Takes a cs rest ∨ Takes b cs rest := by
  constructor
  · intro h
    cases h with
    | first h => exact .inl h
    | second h => exact .inr h
  · rintro (h | h)
    · exact .first h
    · exact .second h

/-! ## Trying finds what may be taken -/

theorem atEnd_iff : atEnd cs = true ↔ cs = [] ∨ cs = ['\n'] := by
  simp [atEnd]

/-- However many characters are taken first, every number of them is tried. -/
theorem triesMany_iff : triesMany p accepts cs = true ↔
    ∃ taken rest, (∀ c ∈ taken, p c = true) ∧ cs = taken ++ rest ∧ accepts rest = true := by
  induction cs with
  | nil =>
      rw [triesMany]
      constructor
      · exact fun h => ⟨[], [], List.forall_mem_nil _, rfl, h⟩
      · rintro ⟨taken, rest, -, hsplit, h⟩
        obtain ⟨-, rfl⟩ := List.append_eq_nil_iff.mp hsplit.symm
        exact h
  | cons c cs ih =>
      rw [triesMany, Bool.or_eq_true, Bool.and_eq_true, ih]
      constructor
      · rintro (⟨hc, taken, rest, htaken, rfl, h⟩ | h)
        · exact ⟨c :: taken, rest, List.forall_mem_cons.mpr ⟨hc, htaken⟩, rfl, h⟩
        · exact ⟨[], c :: cs, List.forall_mem_nil _, rfl, h⟩
      · rintro ⟨taken, rest, htaken, hsplit, h⟩
        cases taken with
        | nil =>
            rw [List.nil_append] at hsplit
            exact .inr (hsplit ▸ h)
        | cons d taken =>
            obtain ⟨rfl, rfl⟩ := List.cons.inj hsplit
            obtain ⟨hc, htaken⟩ := List.forall_mem_cons.mp htaken
            exact .inl ⟨hc, taken, rest, htaken, rfl, h⟩

/-- Trying finds a way to take characters exactly if there is one. -/
theorem tries_iff : a.tries accepts cs = true ↔ ∃ rest, Takes a cs rest ∧ accepts rest = true := by
  induction a generalizing accepts cs with
  | nothing => simp [tries, takes_nothing_iff]
  | one p =>
      cases cs with
      | nil => simp [tries, takes_one_iff]
      | cons c cs => simp [tries, takes_one_iff]
  | many p =>
      simp only [tries, triesMany_iff, takes_many_iff]
      constructor
      · rintro ⟨taken, rest, htaken, hsplit, h⟩
        exact ⟨rest, ⟨taken, htaken, hsplit⟩, h⟩
      · rintro ⟨rest, ⟨taken, htaken, hsplit⟩, h⟩
        exact ⟨taken, rest, htaken, hsplit, h⟩
  | finish => simp [tries, takes_finish_iff, atEnd_iff]
  | next a b iha ihb =>
      -- what the first one leaves is what the second one begins with
      simp only [tries, iha, ihb, takes_next_iff]
      constructor
      · rintro ⟨mid, hfirst, rest, hsecond, h⟩
        exact ⟨rest, ⟨mid, hfirst, hsecond⟩, h⟩
      · rintro ⟨rest, ⟨mid, hfirst, hsecond⟩, h⟩
        exact ⟨mid, hfirst, rest, hsecond, h⟩
  | either a b iha ihb =>
      simp only [tries, Bool.or_eq_true, iha, ihb, takes_either_iff]
      constructor
      · rintro (⟨rest, htakes, h⟩ | ⟨rest, htakes, h⟩)
        · exact ⟨rest, .inl htakes, h⟩
        · exact ⟨rest, .inr htakes, h⟩
      · rintro ⟨rest, htakes | htakes, h⟩
        · exact .inl ⟨rest, htakes, h⟩
        · exact .inr ⟨rest, htakes, h⟩

theorem begins_iff : a.begins cs = true ↔ ∃ rest, Takes a cs rest := by
  simp [begins, tries_iff]

end Pattern

end ImportAudit.Text
