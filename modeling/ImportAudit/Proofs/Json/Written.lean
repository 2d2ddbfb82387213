/-
# ImportAudit.Proofs.Json.Written — what is written is JSON.

A value is plain if numbers in it are integers and its mappings are objects, as the results of a
check are.  The text that is written for a plain value denotes it, in every style and at every level
of indentation (`denotes_write`): strings character by character (`spells_stringChar`), integers
digit by digit (`denotes_int`), arrays and objects by induction on the value.  The same holds of a
value with other numbers, if what is written for these denotes them (`IsDenotable`).
-/
import ImportAudit.Json.Writer
import ImportAudit.Proofs.Json.Grammar
import Mathlib.Tactic.IntervalCases

namespace ImportAudit.Json

/-! ## Strings -/

theorem hexValue?_digitChar {d : Nat} (h : d < 16) : hexValue? (Nat.digitChar d) = some d := by
  interval_cases d <;> rfl

/-- Four digits are enough for a code unit. -/
theorem hexDigits_four {n : Nat} (h : n < 0x10000) :
    Text.hexDigits 4 n = [Nat.digitChar (n / 4096), Nat.digitChar (n / 256 % 16),
      Nat.digitChar (n / 16 % 16), Nat.digitChar (n % 16)] := by
  have hstep : ∀ m : Nat, Nat.toDigits 16 m =
      if m < 16 then [m.digitChar] else Nat.toDigits 16 (m / 16) ++ [(m % 16).digitChar] :=
    fun m => Nat.toDigits_eq_if (by omega)
  have hzero : '0' = Nat.digitChar 0 := rfl
  unfold Text.hexDigits
  -- one case for each number of digits; what the number lacks is filled up with zeros
  rw [hstep n]
  split
  · have : n / 4096 = 0 := by omega
    have : n / 256 % 16 = 0 := by omega
    have : n / 16 % 16 = 0 := by omega
    have : n % 16 = n := by omega
    simp [*, List.replicate]
  · rw [hstep (n / 16)]
    split
    · have : n / 4096 = 0 := by omega
      have : n / 256 % 16 = 0 := by omega
      have : n / 16 % 16 = n / 16 := by omega
      simp [*, List.replicate]
    · rw [hstep (n / 16 / 16)]
      split
      · have : n / 4096 = 0 := by omega
        have : n / 256 % 16 = n / 16 / 16 := by omega
        simp [*]
      · rw [hstep (n / 16 / 16 / 16), if_pos (by omega)]
        have : n / 4096 = n / 16 / 16 / 16 := by omega
        have : n / 256 % 16 = n / 16 / 16 % 16 := by omega
        simp [*]

/-- The escape of a code unit has the value of the unit. -/
theorem unitEscape_eq {n : Nat} (h : n < 0x10000) :
    ∃ h₁ h₂ h₃ h₄, unitEscape n = ['\\', 'u', h₁, h₂, h₃, h₄] ∧
      hexValue4? h₁ h₂ h₃ h₄ = some n := by
  refine ⟨_, _, _, _, by rw [unitEscape, hexDigits_four h], ?_⟩
  have hvalue : ((n / 4096 * 16 + n / 256 % 16) * 16 + n / 16 % 16) * 16 + n % 16 = n := by omega
  rw [hexValue4?, hexValue?_digitChar (by omega), hexValue?_digitChar (by omega),
    hexValue?_digitChar (by omega), hexValue?_digitChar (by omega)]
  exact congrArg some hvalue

theorem spells_unitEscape {c : Char} (h : c.toNat < 0x10000) : Spells (unitEscape c.toNat) c := by
  obtain ⟨h₁, h₂, h₃, h₄, heq, hvalue⟩ := unitEscape_eq h
  rw [heq]
  exact .unit hvalue

/-- Beyond the basic plane there are sixteen more. -/
theorem toNat_lt (c : Char) : c.toNat < 0x110000 := by
  have := c.valid
  simp only [UInt32.isValidChar, Nat.isValidChar] at this
  show c.val.toNat < _
  omega

theorem spells_charEscape (c : Char) : Spells (charEscape c) c := by
  unfold charEscape
  dsimp only
  split
  · next h => exact spells_unitEscape h
  · next h =>
      -- the two halves have ten bits each
      have hmax := toNat_lt c
      obtain ⟨a₁, a₂, a₃, a₄, hhigh, ha⟩ :=
        unitEscape_eq (n := 0xD800 + (c.toNat - 0x10000) / 0x400) (by omega)
      obtain ⟨b₁, b₂, b₃, b₄, hlow, hb⟩ :=
        unitEscape_eq (n := 0xDC00 + (c.toNat - 0x10000) % 0x400) (by omega)
      have hpair : pairChar (0xD800 + (c.toNat - 0x10000) / 0x400)
          (0xDC00 + (c.toNat - 0x10000) % 0x400) = c := by
        have hsum : 0x10000 + (0xD800 + (c.toNat - 0x10000) / 0x400 - 0xD800) * 0x400 +
            (0xDC00 + (c.toNat - 0x10000) % 0x400 - 0xDC00) = c.toNat := by omega
        rw [pairChar, hsum, Char.ofNat_toNat]
      have hpairs := Spells.pair ha hb (by simp [isHighSurrogate]; omega)
        (by simp [isLowSurrogate]; omega)
      rw [hpair] at hpairs
      rw [hhigh, hlow]
      exact hpairs

theorem spells_stringChar (ascii : Bool) (c : Char) : Spells (stringChar ascii c) c := by
  unfold stringChar
  split
  · exact .short rfl
  · exact .short rfl
  · exact .short rfl
  · exact .short rfl
  · exact .short rfl
  · next hquote hbackslash _ _ _ =>
      split
      · next h =>
          have hc : c = Char.ofNat 8 := by rw [← h, Char.ofNat_toNat]
          exact .short (congrArg some hc.symm)
      · split
        · next h =>
            have hc : c = Char.ofNat 12 := by rw [← h, Char.ofNat_toNat]
            exact .short (congrArg some hc.symm)
        · split
          · exact spells_unitEscape (by omega)
          · split
            · exact spells_charEscape c
            · exact .itself hquote hbackslash (by omega)

theorem spellsAll_flatMap (ascii : Bool) (cs : List Char) :
    SpellsAll (cs.flatMap (stringChar ascii)) cs := by
  induction cs with
  | nil => exact .nil
  | cons c cs ih =>
      rw [List.flatMap_cons]
      exact .cons (spells_stringChar ascii c) ih

/-- The text of a string, between its quotes. -/
def spelling (ascii : Bool) (s : String) : List Char := s.toList.flatMap (stringChar ascii)

theorem toList_writeString (ascii : Bool) (s : String) :
    (writeString ascii s).toList = '"' :: spelling ascii s ++ ['"'] := by
  simp [writeString, spelling]

/-! ## Integers -/

theorem isWhole_toDigits (n : Nat) : IsWhole (Nat.toDigits 10 n) := by
  refine ⟨⟨fun d hd => Nat.isDigit_of_mem_toDigits (by omega) (by omega) hd,
    Nat.toDigits_ne_nil⟩, ?_⟩
  induction n using Nat.strongRecOn with
  | _ n ih =>
      intro hhead
      rw [Nat.toDigits_eq_if (by omega)] at hhead ⊢
      split at hhead
      · next h =>
          rw [if_pos h]
          simpa using hhead
      · next h =>
          -- the first digit is that of a smaller number, which is not zero
          rw [List.head?_append_of_ne_nil _ Nat.toDigits_ne_nil] at hhead
          have hzero := ih (n / 10) (by omega) hhead
          have hvalue := Nat.ofDigitChars_ten_toDigits (n := n / 10)
          rw [hzero] at hvalue
          have : Nat.ofDigitChars 10 ['0'] 0 = 0 := rfl
          omega

theorem digitsValue_toDigits (n : Nat) : digitsValue (Nat.toDigits 10 n) = n := by
  have hvalue := Nat.ofDigitChars_ten_toDigits (n := n)
  unfold Nat.ofDigitChars at hvalue
  unfold digitsValue
  simpa only [Nat.mul_comm] using hvalue

theorem denotes_int (i : Int) : Denotes (toString i).toList (.int i) := by
  rw [Int.toString_eq_repr, Int.repr_eq_if]
  split
  · next h =>
      have hint := Denotes.integer false (isWhole_toDigits i.toNat)
      have hi : ((i.toNat : Nat) : Int) = i := Int.toNat_of_nonneg h
      rw [digitsValue_toDigits] at hint
      simpa [sign, hi, Nat.toList_repr] using hint
  · next h =>
      have hint := Denotes.integer true (isWhole_toDigits (-i).toNat)
      have hi : -(((-i).toNat : Nat) : Int) = i := by omega
      rw [digitsValue_toDigits, if_pos rfl, hi] at hint
      simpa [sign, Nat.toList_repr] using hint

/-! ## Values -/

/-- The numbers in a value are integers, and its mappings are objects. -/
inductive IsPlain : Value → Prop
  | null : IsPlain .null
  | bool (b : Bool) : IsPlain (.bool b)
  | int (i : Int) : IsPlain (.int i)
  | text (s : String) : IsPlain (.text s)
  | list {vs : List Value} (h : ∀ v ∈ vs, IsPlain v) : IsPlain (.list vs)
  | mapping {entries : List (Value × Value)} (once : Value.IsObject entries)
      (h : ∀ e ∈ entries, IsPlain e.2) : IsPlain (.mapping entries)

/-- What is written for the numbers in a value denotes them, and its mappings are objects. -/
inductive IsDenotable : Value → Prop
  | null : IsDenotable .null
  | bool (b : Bool) : IsDenotable (.bool b)
  | int (i : Int) : IsDenotable (.int i)
  | float {x : Number.Binary64} (h : Denotes x.toJson.toList (.float x)) : IsDenotable (.float x)
  | text (s : String) : IsDenotable (.text s)
  | list {vs : List Value} (h : ∀ v ∈ vs, IsDenotable v) : IsDenotable (.list vs)
  | mapping {entries : List (Value × Value)} (once : Value.IsObject entries)
      (h : ∀ e ∈ entries, IsDenotable e.2) : IsDenotable (.mapping entries)

theorem IsPlain.isDenotable {v : Value} (h : IsPlain v) : IsDenotable v := by
  induction h with
  | null => exact .null
  | bool b => exact .bool b
  | int i => exact .int i
  | text s => exact .text s
  | list _ ih => exact .list ih
  | mapping once _ ih => exact .mapping once ih

theorem isBlanks_newline (style : Style) (level : Nat) :
    IsBlanks (style.newline level).toList := by
  unfold Style.newline
  split
  · intro c hc
    simp only [String.toList_append, String.toList_ofList, List.mem_append,
      List.mem_replicate] at hc
    rcases hc with hc | ⟨-, rfl⟩
    · rw [List.mem_singleton.mp hc]
      rfl
    · rfl
  · intro c hc
    cases hc

/-- What stands between two items is a comma with blanks behind it. -/
theorem separator_eq (style : Style) (level : Nat) :
    ∃ blanks, (style.separator level).toList = ',' :: blanks ∧ IsBlanks blanks := by
  unfold Style.separator
  split
  · exact ⟨(style.newline level).toList, by simp, isBlanks_newline style level⟩
  · exact ⟨[' '], rfl, fun c hc => by rw [List.mem_singleton.mp hc]; rfl⟩

theorem isBlanks_nil : IsBlanks [] := nofun

/-- Items that denote what they were written for do so one behind the other. -/
theorem denotesItems_write (style : Style) (level : Nat) {before behind cs : List Char} {v : Value}
    {vs : List Value} (hbefore : IsBlanks before) (hv : Denotes cs v)
    (hvs : ∀ w ∈ vs, Denotes (write style level w).toList w) (hbehind : IsBlanks behind) :
    DenotesItems (before ++ cs ++ (writeItems style level vs).toList ++ behind) (v :: vs) := by
  induction vs generalizing before cs v with
  | nil =>
      rw [writeItems, String.toList_empty, List.append_nil]
      exact .one hbefore hv hbehind
  | cons w vs ih =>
      obtain ⟨blanks, hsep, hblanks⟩ := separator_eq style level
      have hrest := ih hblanks (hvs w List.mem_cons_self)
        fun u hu => hvs u (List.mem_cons_of_mem w hu)
      have hall := DenotesItems.more hbefore hv isBlanks_nil hrest
      simpa [writeItems, hsep] using hall

/-- A member denotes what it was written for if its value does. -/
theorem denotesMember_write (style : Style) (level : Nat) {before behind : List Char} (s : String)
    {v : Value} (hbefore : IsBlanks before) (hv : Denotes (write style level v).toList v)
    (hbehind : IsBlanks behind) :
    DenotesMember (before ++ (writeString style.ascii (keyText (.text s))).toList ++
      [':', ' '] ++ (write style level v).toList ++ behind) (.text s, v) := by
  have hblank : IsBlanks [' '] := fun c hc => by rw [List.mem_singleton.mp hc]; rfl
  have hname : SpellsAll (spelling style.ascii s) s.toList := spellsAll_flatMap style.ascii _
  have hmember := DenotesMember.mk hbefore hname isBlanks_nil hblank hv hbehind
  simpa [keyText, toList_writeString] using hmember

/-- Members whose values denote what they were written for do so one behind the other. -/
theorem denotesMembers_write (style : Style) (level : Nat) {before behind : List Char} {s : String}
    {v : Value} {entries : List (Value × Value)} (hbefore : IsBlanks before)
    (hv : Denotes (write style level v).toList v) (once : Value.IsObject entries)
    (hentries : ∀ e ∈ entries, Denotes (write style level e.2).toList e.2)
    (hbehind : IsBlanks behind) :
    DenotesMembers (before ++ (writeString style.ascii (keyText (.text s))).toList ++ [':', ' '] ++
      (write style level v).toList ++ (writeMembers style level entries).toList ++ behind)
      ((.text s, v) :: entries) := by
  induction once generalizing before s v with
  | nil =>
      rw [writeMembers, String.toList_empty, List.append_nil]
      exact .one (denotesMember_write style level s hbefore hv hbehind)
  | @cons name w entries new rest ih =>
      obtain ⟨blanks, hsep, hblanks⟩ := separator_eq style level
      have hmore := ih (s := name) hblanks (hentries _ List.mem_cons_self)
        fun e he => hentries e (List.mem_cons_of_mem _ he)
      have hall := DenotesMembers.more (denotesMember_write style level s hbefore hv isBlanks_nil)
        hmore
      simpa [writeMembers, hsep] using hall

/-- The text that is written for a value denotes it if that is so of the numbers in it. -/
theorem denotes_write {v : Value} (h : IsDenotable v) (style : Style) (level : Nat) :
    Denotes (write style level v).toList v := by
  induction h generalizing level with
  | null =>
      rw [write]
      exact .null
  | bool b =>
      rw [write]
      cases b with
      | true => exact .isTrue
      | false => exact .isFalse
  | int i =>
      rw [write]
      exact denotes_int i
  | float h =>
      rw [write]
      exact h
  | text s =>
      rw [write, toList_writeString]
      exact .text (spellsAll_flatMap style.ascii _)
  | @list vs h ih =>
      cases vs with
      | nil =>
          rw [write]
          exact .noItems isBlanks_nil
      | cons v vs =>
          have hitems := denotesItems_write style (level + 1)
            (isBlanks_newline style (level + 1)) (ih v List.mem_cons_self (level + 1))
            (fun w hw => ih w (List.mem_cons_of_mem v hw) (level + 1))
            (isBlanks_newline style level)
          have hlist := Denotes.items hitems
          simpa [write] using hlist
  | @mapping entries once h ih =>
      cases once with
      | nil =>
          rw [write]
          exact .noMembers isBlanks_nil
      | @cons name v entries new rest =>
          have hmembers := denotesMembers_write style (level + 1) (s := name)
            (isBlanks_newline style (level + 1)) (ih _ List.mem_cons_self (level + 1)) rest
            (fun e he => ih e (List.mem_cons_of_mem _ he) (level + 1))
            (isBlanks_newline style level)
          have hobject := Denotes.members hmembers (.cons new rest)
          simpa [write] using hobject

/-- What is rendered of a value is a JSON text of it, also with blanks behind it. -/
theorem isText_render {v : Value} (h : IsDenotable v) (style : Style) {behind : List Char}
    (hbehind : IsBlanks behind) : IsText ((render style v).toList ++ behind) v :=
  ⟨[], _, behind, isBlanks_nil, denotes_write h style 0, hbehind, rfl⟩

end ImportAudit.Json
