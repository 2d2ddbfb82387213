/-
# ImportAudit.Proofs.Json.Grammar — what a JSON text is.

A text denotes a value if the grammar derives it: an array has items between brackets with commas
between them, an object has members between braces, and blanks may stand around each of these.  A
character of a string stands for itself or is escaped, and one beyond the basic plane may be escaped
in two halves.  A number without a fraction and an exponent is an integer.  A text may be derived for
one value in many ways, and no reader or writer has a part in this; a text that denotes anything
begins with one of few characters (`IsText.head`).
-/
import ImportAudit.Json.Reader
import ImportAudit.Proofs.Json.Members

namespace ImportAudit.Json

/-! ## Blanks and digits -/

/-- The text has blanks only. -/
def IsBlanks (cs : List Char) : Prop := ∀ c ∈ cs, isBlank c = true

/-- The text has digits only, and at least one. -/
structure IsDigits (ds : List Char) : Prop where
  digit : ∀ d ∈ ds, d.isDigit = true
  ne_nil : ds ≠ []

/-- The digits do not begin with a zero, unless there is nothing else. -/
structure IsWhole (ds : List Char) : Prop extends IsDigits ds where
  zero : ds.head? = some '0' → ds = ['0']

/-- The sign of a number: a minus or nothing. -/
def sign (negative : Bool) : List Char := if negative then ['-'] else []

/-- A point and digits behind it, or nothing. -/
inductive IsFraction : List Char → List Char → Prop
  | absent : IsFraction [] []
  | present {ds : List Char} (h : IsDigits ds) : IsFraction ('.' :: ds) ds

/-- A mark, a sign and digits, or nothing, which is an exponent of zero. -/
inductive IsExponent : List Char → Int → Prop
  | absent : IsExponent [] 0
  | plain {mark : Char} {ds : List Char} (hmark : mark = 'e' ∨ mark = 'E') (h : IsDigits ds) :
      IsExponent (mark :: ds) (digitsValue ds)
  | plus {mark : Char} {ds : List Char} (hmark : mark = 'e' ∨ mark = 'E') (h : IsDigits ds) :
      IsExponent (mark :: '+' :: ds) (digitsValue ds)
  | minus {mark : Char} {ds : List Char} (hmark : mark = 'e' ∨ mark = 'E') (h : IsDigits ds) :
      IsExponent (mark :: '-' :: ds) (-(digitsValue ds : Int))

/-! ## Strings -/

/-- A character may be written in a string in this way. -/
inductive Spells : List Char → Char → Prop
  | itself {c : Char} (quote : c ≠ '"') (backslash : c ≠ '\\') (control : 0x20 ≤ c.toNat) :
      Spells [c] c
  | short {e c : Char} (h : shortEscape? e = some c) : Spells ['\\', e] c
  | unit {h₁ h₂ h₃ h₄ c : Char} (h : hexValue4? h₁ h₂ h₃ h₄ = some c.toNat) :
      Spells ['\\', 'u', h₁, h₂, h₃, h₄] c
  | pair {h₁ h₂ h₃ h₄ l₁ l₂ l₃ l₄ : Char} {high low : Nat}
      (hhigh : hexValue4? h₁ h₂ h₃ h₄ = some high) (hlow : hexValue4? l₁ l₂ l₃ l₄ = some low)
      (first : isHighSurrogate high = true) (second : isLowSurrogate low = true) :
      Spells ['\\', 'u', h₁, h₂, h₃, h₄, '\\', 'u', l₁, l₂, l₃, l₄] (pairChar high low)

/-- Characters may be written in a string in this way, one after the other. -/
inductive SpellsAll : List Char → List Char → Prop
  | nil : SpellsAll [] []
  | cons {cs rest : List Char} {c : Char} {s : List Char} (first : Spells cs c)
      (more : SpellsAll rest s) : SpellsAll (cs ++ rest) (c :: s)

/-! ## Values -/

mutual

/-- The text, without blanks around it, denotes the value. -/
inductive Denotes : List Char → Value → Prop
  | null : Denotes ['n', 'u', 'l', 'l'] .null
  | isTrue : Denotes ['t', 'r', 'u', 'e'] (.bool true)
  | isFalse : Denotes ['f', 'a', 'l', 's', 'e'] (.bool false)
  | integer (negative : Bool) {ds : List Char} (h : IsWhole ds) :
      Denotes (sign negative ++ ds)
        (.int (if negative then -(digitsValue ds : Int) else digitsValue ds))
  | decimal (negative : Bool) {ds point places mark : List Char} {exponent : Int} (h : IsWhole ds)
      (fraction : IsFraction point places) (scale : IsExponent mark exponent)
      (some : point ≠ [] ∨ mark ≠ []) :
      Denotes (sign negative ++ ds ++ point ++ mark)
        (.float (.ofDecimal negative (digitsValue (ds ++ places)) (exponent - places.length)))
  | text {cs : List Char} {s : String} (h : SpellsAll cs s.toList) :
      Denotes ('"' :: cs ++ ['"']) (.text s)
  | noItems {blanks : List Char} (h : IsBlanks blanks) : Denotes ('[' :: blanks ++ [']']) (.list [])
  | items {cs : List Char} {vs : List Value} (h : DenotesItems cs vs) :
      Denotes ('[' :: cs ++ [']']) (.list vs)
  | noMembers {blanks : List Char} (h : IsBlanks blanks) :
      Denotes ('{' :: blanks ++ ['}']) (.mapping [])
  | members {cs : List Char} {entries : List (Value × Value)} (h : DenotesMembers cs entries)
      (once : Value.IsObject entries) : Denotes ('{' :: cs ++ ['}']) (.mapping entries)

/-- The text between the brackets of an array denotes its items. -/
inductive DenotesItems : List Char → List Value → Prop
  | one {before cs behind : List Char} {v : Value} (hbefore : IsBlanks before) (h : Denotes cs v)
      (hbehind : IsBlanks behind) : DenotesItems (before ++ cs ++ behind) [v]
  | more {before cs behind rest : List Char} {v : Value} {vs : List Value}
      (hbefore : IsBlanks before) (h : Denotes cs v) (hbehind : IsBlanks behind)
      (hrest : DenotesItems rest vs) : DenotesItems (before ++ cs ++ behind ++ ',' :: rest) (v :: vs)

/-- The text between the braces of an object denotes its members. -/
inductive DenotesMembers : List Char → List (Value × Value) → Prop
  | one {cs : List Char} {entry : Value × Value} (h : DenotesMember cs entry) :
      DenotesMembers cs [entry]
  | more {cs rest : List Char} {entry : Value × Value} {entries : List (Value × Value)}
      (h : DenotesMember cs entry) (hrest : DenotesMembers rest entries) :
      DenotesMembers (cs ++ ',' :: rest) (entry :: entries)

/-- The text denotes a member, whose name and whose value may have blanks around them. -/
inductive DenotesMember : List Char → Value × Value → Prop
  | mk {before name between after cs behind : List Char} {s : String} {v : Value}
      (hbefore : IsBlanks before) (hname : SpellsAll name s.toList) (hbetween : IsBlanks between)
      (hafter : IsBlanks after) (h : Denotes cs v) (hbehind : IsBlanks behind) :
      DenotesMember
        (before ++ '"' :: name ++ '"' :: between ++ ':' :: after ++ cs ++ behind) (.text s, v)

end

/-- The whole text denotes the value, and there are blanks around that. -/
def IsText (cs : List Char) (v : Value) : Prop :=
  ∃ before inner behind, IsBlanks before ∧ Denotes inner v ∧ IsBlanks behind ∧
    cs = before ++ inner ++ behind

/-! ## How a text begins -/

/-- What begins a value: a quote, a bracket, a brace, a minus, a digit or a name. -/
def beginsValue (c : Char) : Bool :=
  c.isDigit || ['n', 't', 'f', '-', '"', '[', '{'].contains c

theorem beginsValue_of_isDigit {c : Char} (h : c.isDigit = true) : beginsValue c = true := by
  rw [beginsValue, h, Bool.true_or]

theorem sign_head (negative : Bool) {ds : List Char} (h : IsDigits ds) (rest : List Char) :
    ∃ c cs, sign negative ++ ds ++ rest = c :: cs ∧ beginsValue c = true := by
  cases negative with
  | true => exact ⟨'-', ds ++ rest, rfl, rfl⟩
  | false =>
      obtain ⟨hdigit, hne⟩ := h
      cases ds with
      | nil => exact absurd rfl hne
      | cons d ds =>
          exact ⟨d, ds ++ rest, rfl, beginsValue_of_isDigit (hdigit d List.mem_cons_self)⟩

theorem Denotes.head {cs : List Char} {v : Value} (h : Denotes cs v) :
    ∃ c rest, cs = c :: rest ∧ beginsValue c = true := by
  cases h with
  | integer negative h =>
      obtain ⟨c, rest, hcs, hc⟩ := sign_head negative h.toIsDigits []
      exact ⟨c, rest, by rwa [List.append_nil] at hcs, hc⟩
  | decimal negative h =>
      simp only [List.append_assoc]
      rw [← List.append_assoc]
      exact sign_head negative h.toIsDigits _
  | _ => exact ⟨_, _, rfl, rfl⟩

/-- A JSON text has a character that is not blank, and the first such begins a value. -/
theorem IsText.head {cs : List Char} {v : Value} (h : IsText cs v) :
    ∃ c rest, skipBlank cs = c :: rest ∧ beginsValue c = true := by
  obtain ⟨before, inner, behind, hbefore, hinner, -, rfl⟩ := h
  obtain ⟨c, rest, rfl, hc⟩ := hinner.head
  refine ⟨c, rest ++ behind, ?_, hc⟩
  have hnot : isBlank c = false := by
    cases hblank : isBlank c with
    | false => rfl
    | true =>
        simp only [isBlank, Bool.or_eq_true, beq_iff_eq] at hblank
        rcases hblank with ((rfl | rfl) | rfl) | rfl <;> cases hc
  rw [skipBlank, List.append_assoc, List.dropWhile_append_of_pos hbefore]
  simp [hnot]

end ImportAudit.Json
