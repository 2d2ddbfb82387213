/-
# ImportAudit.Proofs.Json.Decoding — a JSON text is read as the value that it tells.

A text tells a value (`Tells`) if it denotes it, or if it denotes it but for names that an object
gives more than once, of which the last counts.  What a text tells lies within the bounds of the
reader: so many arrays and objects lie in one another, and its integers have so many digits.  Arrays
and objects are read for any reader of what lies in them (`Reads`), so that values follow by
induction on how deep they lie, as the reader goes about it (`reads_tells`), and whole texts from
these (`read_of_tellsText`).  A text that denotes a value within the bounds tells it
(`Denotes.tells`).
-/
import ImportAudit.Proofs.Json.Lexemes
import ImportAudit.Proofs.Json.Written

namespace ImportAudit.Json

/-! ## What tells a value -/

section Told

variable (P : List Char → Value → Prop)

/-- The text between the brackets of an array: items as `P` has them, with commas between them. -/
inductive Items : List Char → List Value → Prop
  | one {before cs behind : List Char} {v : Value} (hbefore : IsBlanks before) (h : P cs v)
      (hbehind : IsBlanks behind) : Items (before ++ cs ++ behind) [v]
  | more {before cs behind rest : List Char} {v : Value} {vs : List Value}
      (hbefore : IsBlanks before) (h : P cs v) (hbehind : IsBlanks behind) (hrest : Items rest vs) :
      Items (before ++ cs ++ behind ++ ',' :: rest) (v :: vs)

/-- The text of a member, whose value is as `P` has it. -/
inductive Member : List Char → String → Value → Prop
  | mk {before name between after cs behind : List Char} {s : String} {v : Value}
      (hbefore : IsBlanks before) (hname : SpellsAll name s.toList) (hbetween : IsBlanks between)
      (hafter : IsBlanks after) (h : P cs v) (hbehind : IsBlanks behind) :
      Member (before ++ '"' :: name ++ '"' :: between ++ ':' :: after ++ cs ++ behind) s v

/-- The text between the braces of an object: members with commas between them, in which a name may
be given more than once. -/
inductive Members : List Char → List (Value × Value) → Prop
  | one {cs : List Char} {s : String} {v : Value} (h : Member P cs s v) : Members cs [(.text s, v)]
  | more {cs rest : List Char} {s : String} {v : Value} {given : List (Value × Value)}
      (h : Member P cs s v) (hrest : Members rest given) :
      Members (cs ++ ',' :: rest) ((.text s, v) :: given)

/-- The text of an array or an object, in which the last value counts that a name is given. -/
inductive Nested : List Char → Value → Prop
  | noItems {blanks : List Char} (h : IsBlanks blanks) : Nested ('[' :: blanks ++ [']']) (.list [])
  | items {cs : List Char} {vs : List Value} (h : Items P cs vs) :
      Nested ('[' :: cs ++ [']']) (.list vs)
  | noMembers {blanks : List Char} (h : IsBlanks blanks) :
      Nested ('{' :: blanks ++ ['}']) (.mapping [])
  | members {cs : List Char} {given : List (Value × Value)} (h : Members P cs given) :
      Nested ('{' :: cs ++ ['}']) (.mapping (Value.insertAll given))

end Told

/-- The text, without blanks around it, tells the value, in which at most `depth` arrays and objects
lie in one another. -/
def Tells : Nat → List Char → Value → Prop
  | 0, cs, v => Denotes cs v ∧ IsFlat v
  | depth + 1, cs, v => Denotes cs v ∧ IsFlat v ∨ Nested (Tells depth) cs v

/-- The whole text tells the value, within the bounds of the reader, and there are blanks around
that. -/
def TellsText (cs : List Char) (v : Value) : Prop :=
  ∃ before inner behind, IsBlanks before ∧ Tells maxDepth inner v ∧ IsBlanks behind ∧
    cs = before ++ inner ++ behind

theorem isBlank_of_beginsValue {c : Char} (h : beginsValue c = true) : isBlank c = false := by
  cases hblank : isBlank c with
  | false => rfl
  | true =>
      simp only [isBlank, Bool.or_eq_true, beq_iff_eq] at hblank
      rcases hblank with ((rfl | rfl) | rfl) | rfl <;> cases h

/-- What tells a value begins as values do. -/
theorem Tells.head {depth : Nat} {cs : List Char} {v : Value} (h : Tells depth cs v) :
    ∃ c rest, cs = c :: rest ∧ beginsValue c = true := by
  cases depth with
  | zero => exact h.1.head
  | succ depth =>
      rcases h with ⟨h, -⟩ | h
      · exact h.head
      · cases h <;> exact ⟨_, _, rfl, rfl⟩

/-! ## Arrays and objects, for any reader of what lies in them -/

section Reads

variable {P : List Char → Value → Prop} {size : Nat}
  {readValue : List Char → Except Fault (Value × List Char)}

/-- The reader takes each value up to its end, in a text that is not too long, and values have a
first character that tells them from blanks and brackets that close. -/
structure Reads (size : Nat) (P : List Char → Value → Prop)
    (readValue : List Char → Except Fault (Value × List Char)) : Prop where
  read : ∀ {cs v rest}, P cs v → IsEnd rest → (cs ++ rest).length < size →
    readValue (cs ++ rest) = .ok (v, rest)
  head : ∀ {cs v}, P cs v → ∃ c rest, cs = c :: rest ∧ beginsValue c = true

/-- Blanks before a value are skipped. -/
theorem Reads.skipBlank_append (hP : Reads size P readValue) {before cs : List Char} {v : Value}
    (hbefore : IsBlanks before) (h : P cs v) (rest : List Char) :
    skipBlank (before ++ cs ++ rest) = cs ++ rest := by
  obtain ⟨c, tail, rfl, hc⟩ := hP.head h
  rw [List.append_assoc, Json.skipBlank_append hbefore, List.cons_append,
    skipBlank_cons (isBlank_of_beginsValue hc)]

/-- A value, the blanks behind it and the character behind these. -/
theorem Reads.read_behind (hP : Reads size P readValue) {cs behind : List Char} {v : Value}
    (h : P cs v) (hbehind : IsBlanks behind) {c : Char} (hc : endsNumber c = true)
    (hblank : isBlank c = false) {rest : List Char}
    (hsize : (cs ++ behind ++ c :: rest).length < size) :
    ∃ more, readValue (cs ++ behind ++ c :: rest) = .ok (v, more) ∧
      skipBlank more = c :: rest := by
  refine ⟨behind ++ c :: rest, ?_, ?_⟩
  · rw [List.append_assoc] at hsize ⊢
    exact hP.read h (hbehind.isEnd_append (isEnd_cons hc)) hsize
  · rw [Json.skipBlank_append hbehind, skipBlank_cons hblank]

/-! ### Items -/

theorem Items.head (hP : Reads size P readValue) {cs : List Char} {vs : List Value}
    (h : Items P cs vs) (rest : List Char) :
    ∃ c more, skipBlank (cs ++ rest) = c :: more ∧ beginsValue c = true := by
  cases h with
  | @one before cs behind v hbefore h hbehind =>
      obtain ⟨c, tail, hcs, hc⟩ := hP.head h
      refine ⟨c, tail ++ (behind ++ rest), ?_, hc⟩
      rw [List.append_assoc, hP.skipBlank_append hbefore h, hcs]
      rfl
  | @more before cs behind tail v vs hbefore h hbehind hrest =>
      obtain ⟨c, more, hcs, hc⟩ := hP.head h
      refine ⟨c, more ++ (behind ++ ',' :: tail ++ rest), ?_, hc⟩
      rw [List.append_assoc, List.append_assoc, hP.skipBlank_append hbefore h, hcs]
      simp

/-- The items of an array are read up to the bracket behind them. -/
theorem readItems_append (hP : Reads size P readValue) {cs : List Char} {vs : List Value}
    (h : Items P cs vs) {rest : List Char} (hsize : (cs ++ ']' :: rest).length < size) {fuel : Nat}
    (hfuel : cs.length < fuel) (items : List Value) :
    readItems readValue fuel items (skipBlank (cs ++ ']' :: rest)) =
      .ok (items.reverse ++ vs, rest) := by
  induction h generalizing fuel items with
  | @one before cs behind v hbefore h hbehind =>
      cases fuel with
      | zero => cases hfuel
      | succ fuel =>
          have hlength : (cs ++ behind ++ ']' :: rest).length < size := by
            simp at hsize ⊢
            omega
          obtain ⟨more, hread, hskip⟩ := hP.read_behind h hbehind rfl rfl hlength
          rw [List.append_assoc, hP.skipBlank_append hbefore h, ← List.append_assoc, readItems,
            hread]
          simp [hskip]
  | @more before cs behind tail v vs hbefore h hbehind hrest ih =>
      cases fuel with
      | zero => cases hfuel
      | succ fuel =>
          have hlength : (cs ++ behind ++ ',' :: (tail ++ ']' :: rest)).length < size := by
            simp at hsize ⊢
            omega
          have htail : (tail ++ ']' :: rest).length < size := by
            simp at hsize ⊢
            omega
          have hfuel' : tail.length < fuel := by
            simp at hfuel
            omega
          obtain ⟨more, hread, hskip⟩ := hP.read_behind h hbehind rfl rfl hlength
          have hmore := ih htail hfuel' (v :: items)
          have hcs : before ++ cs ++ behind ++ ',' :: tail ++ ']' :: rest =
              before ++ cs ++ (behind ++ ',' :: (tail ++ ']' :: rest)) := by simp
          rw [hcs, hP.skipBlank_append hbefore h, ← List.append_assoc, readItems, hread]
          simp [hskip, hmore]

/-! ### Members -/

theorem Member.head {cs : List Char} {s : String} {v : Value} (h : Member P cs s v)
    (rest : List Char) : ∃ more, skipBlank (cs ++ rest) = '"' :: more := by
  cases h with
  | @mk before name between after cs behind s v hbefore =>
      refine ⟨name ++ '"' :: between ++ ':' :: after ++ cs ++ behind ++ rest, ?_⟩
      simp only [List.append_assoc, List.cons_append]
      rw [Json.skipBlank_append hbefore, skipBlank_cons rfl]

theorem Members.head {cs : List Char} {given : List (Value × Value)} (h : Members P cs given)
    (rest : List Char) : ∃ more, skipBlank (cs ++ rest) = '"' :: more := by
  cases h with
  | one h => exact h.head rest
  | @more cs tail s v given h hrest =>
      rw [List.append_assoc]
      exact h.head _

/-- The name of a member is read with the colon behind it, up to the value. -/
theorem Member.readMemberName_append (hP : Reads size P readValue) {cs : List Char} {s : String}
    {v : Value} (h : Member P cs s v) {rest : List Char} (hsize : (cs ++ rest).length < size) :
    ∃ value behind, P value v ∧ IsBlanks behind ∧ (value ++ behind ++ rest).length < size ∧
      readMemberName size (skipBlank (cs ++ rest)) = .ok (s, value ++ behind ++ rest) := by
  cases h with
  | @mk before name between after cs behind s v hbefore hname hbetween hafter h hbehind =>
      refine ⟨cs, behind, h, hbehind, by simp at hsize ⊢; omega, ?_⟩
      have hcs : before ++ '"' :: name ++ '"' :: between ++ ':' :: after ++ cs ++ behind ++ rest =
          before ++ '"' :: (name ++ '"' :: (between ++ ':' :: (after ++ cs ++ (behind ++ rest)))) := by
        simp
      have hlength : name.length < size := by
        simp at hsize
        omega
      have hstring := readString_append
        ('"' :: (name ++ '"' :: (between ++ ':' :: (after ++ cs ++ (behind ++ rest))))) hname
        (between ++ ':' :: (after ++ cs ++ (behind ++ rest))) hlength []
      have hcolon : skipBlank (between ++ ':' :: (after ++ cs ++ (behind ++ rest))) =
          ':' :: (after ++ cs ++ (behind ++ rest)) := by
        rw [Json.skipBlank_append hbetween, skipBlank_cons rfl]
      rw [List.reverse_nil, List.nil_append, String.ofList_toList] at hstring
      rw [hcs, Json.skipBlank_append hbefore, skipBlank_cons rfl]
      simp only [readMemberName, hstring, hcolon, hP.skipBlank_append hafter h]
      rw [List.append_assoc]

/-- The members of an object are read up to the brace behind them, each as given after the ones
before it. -/
theorem readMembers_append (hP : Reads size P readValue) {cs : List Char}
    {given : List (Value × Value)} (h : Members P cs given) {rest : List Char}
    (hsize : (cs ++ '}' :: rest).length < size) {fuel : Nat} (hfuel : cs.length < fuel)
    (members : List (Value × Value)) :
    readMembers size readValue fuel members (skipBlank (cs ++ '}' :: rest)) =
      .ok (given.foldl (fun es e => Value.insertEntry e.1 e.2 es) members, rest) := by
  induction h generalizing fuel members with
  | @one cs s v h =>
      cases fuel with
      | zero => cases hfuel
      | succ fuel =>
          obtain ⟨value, behind, hvalue, hbehind, hlength, hname⟩ :=
            h.readMemberName_append hP hsize
          obtain ⟨more, hread, hskip⟩ := hP.read_behind hvalue hbehind rfl rfl hlength
          simp only [readMembers, hname, hread, hskip]
          rfl
  | @more cs tail s v given h hrest ih =>
      cases fuel with
      | zero => cases hfuel
      | succ fuel =>
          have hcs : cs ++ ',' :: tail ++ '}' :: rest = cs ++ ',' :: (tail ++ '}' :: rest) := by simp
          rw [hcs] at hsize ⊢
          obtain ⟨value, behind, hvalue, hbehind, hlength, hname⟩ :=
            h.readMemberName_append hP hsize
          obtain ⟨more, hread, hskip⟩ := hP.read_behind hvalue hbehind rfl rfl hlength
          have htail : (tail ++ '}' :: rest).length < size := by
            simp at hsize ⊢
            omega
          have hfuel' : tail.length < fuel := by
            simp at hfuel
            omega
          have hmore := ih htail hfuel' (Value.insertEntry (.text s) v members)
          simp only [readMembers, hname, hread, hskip]
          exact hmore

end Reads

/-! ## Values and whole texts -/

/-- What tells a value is read as that value, however deep it lies. -/
theorem reads_tells (size depth : Nat) : Reads size (Tells depth) (readValue size depth) where
  head := Tells.head
  read := by
    induction depth with
    | zero => exact fun h hrest hsize => readValue_of_isFlat h.1 h.2 hrest hsize 0
    | succ depth ih =>
        have hP : Reads size (Tells depth) (readValue size depth) := ⟨ih, Tells.head⟩
        intro cs v rest h hrest hsize
        rcases h with ⟨h, hflat⟩ | h
        · exact readValue_of_isFlat h hflat hrest hsize (depth + 1)
        · cases h with
          | @noItems blanks h =>
              have hskip : skipBlank (blanks ++ ']' :: rest) = ']' :: rest := by
                rw [skipBlank_append h, skipBlank_cons rfl]
              simp [readValue, hskip]
          | @items cs vs h =>
              have hlength : (cs ++ ']' :: rest).length < size := by
                simp at hsize ⊢
                omega
              have hfuel : cs.length < size := by
                simp at hlength
                omega
              have hitems := readItems_append hP h hlength hfuel []
              obtain ⟨c, more, hskip, hc⟩ := h.head hP (']' :: rest)
              have hne : c ≠ ']' := by rintro rfl; cases hc
              rw [hskip] at hitems
              simp [readValue, hskip, hne, hitems]
          | @noMembers blanks h =>
              have hskip : skipBlank (blanks ++ '}' :: rest) = '}' :: rest := by
                rw [skipBlank_append h, skipBlank_cons rfl]
              simp [readValue, hskip]
          | @members cs given h =>
              have hlength : (cs ++ '}' :: rest).length < size := by
                simp at hsize ⊢
                omega
              have hfuel : cs.length < size := by
                simp at hlength
                omega
              have hmembers := readMembers_append hP h hlength hfuel []
              obtain ⟨more, hskip⟩ := h.head ('}' :: rest)
              rw [hskip] at hmembers
              simp [readValue, hskip, hmembers, Value.insertAll]

/-- A whole text is read as the value that it tells. -/
theorem read_of_tellsText {cs : List Char} {v : Value} (h : TellsText cs v) : read cs = .ok v := by
  obtain ⟨before, inner, behind, hbefore, hinner, hbehind, rfl⟩ := h
  have hP := reads_tells ((before ++ inner ++ behind).length + 1) maxDepth
  have hskip : skipBlank (before ++ inner ++ behind) = inner ++ behind :=
    hP.skipBlank_append hbefore hinner behind
  have hread : readValue ((before ++ inner ++ behind).length + 1) maxDepth (inner ++ behind) =
      .ok (v, behind) := by
    have hlength : (inner ++ behind).length < (before ++ inner ++ behind).length + 1 := by
      simp only [List.length_append]
      omega
    have hend := hbehind.isEnd_append isEnd_nil
    rw [List.append_nil] at hend
    exact hP.read hinner hend hlength
  have hrest : skipBlank behind = [] := by
    have hblanks := skipBlank_append hbehind []
    rwa [List.append_nil] at hblanks
  -- neither a blank nor the first character of a value is the mark
  have hmark : ¬(before ++ inner ++ behind).head? = some (Char.ofNat 0xFEFF) := by
    cases before with
    | nil =>
        obtain ⟨c, tail, rfl, hc⟩ := Tells.head hinner
        intro heq
        cases heq
        cases hc
    | cons b before =>
        have hb := hbefore b List.mem_cons_self
        intro heq
        cases heq
        cases hb
  unfold read
  rw [if_neg hmark, hskip, hread]
  simp [hrest]

/-! ## Texts that give each name once -/

/-- At most `depth` lists and mappings lie in one another, and integers have few digits. -/
inductive IsBounded : Nat → Value → Prop
  | flat {depth : Nat} {v : Value} (h : IsFlat v) : IsBounded depth v
  | list {depth : Nat} {vs : List Value} (h : ∀ v ∈ vs, IsBounded depth v) :
      IsBounded (depth + 1) (.list vs)
  | mapping {depth : Nat} {entries : List (Value × Value)} (h : ∀ e ∈ entries, IsBounded depth e.2) :
      IsBounded (depth + 1) (.mapping entries)

theorem DenotesItems.items {P : List Char → Value → Prop} {cs : List Char} {vs : List Value}
    (h : DenotesItems cs vs) (hP : ∀ v ∈ vs, ∀ {cs}, Denotes cs v → P cs v) : Items P cs vs := by
  induction vs generalizing cs with
  | nil => cases h
  | cons v vs ih =>
      cases h with
      | one hbefore h hbehind => exact .one hbefore (hP v List.mem_cons_self h) hbehind
      | more hbefore h hbehind hrest =>
          have hmore := ih hrest fun w hw => hP w (List.mem_cons_of_mem v hw)
          exact .more hbefore (hP v List.mem_cons_self h) hbehind hmore

theorem DenotesMember.member {P : List Char → Value → Prop} {cs : List Char} {entry : Value × Value}
    (h : DenotesMember cs entry) (hP : ∀ {cs}, Denotes cs entry.2 → P cs entry.2) :
    ∃ s, entry = (.text s, entry.2) ∧ Member P cs s entry.2 := by
  cases h with
  | mk hbefore hname hbetween hafter h hbehind =>
      exact ⟨_, rfl, .mk hbefore hname hbetween hafter (hP h) hbehind⟩

theorem DenotesMembers.members {P : List Char → Value → Prop} {cs : List Char}
    {entries : List (Value × Value)} (h : DenotesMembers cs entries)
    (hP : ∀ e ∈ entries, ∀ {cs}, Denotes cs e.2 → P cs e.2) : Members P cs entries := by
  induction entries generalizing cs with
  | nil => cases h
  | cons e entries ih =>
      cases h with
      | one h =>
          obtain ⟨s, he, hmember⟩ := h.member (hP e List.mem_cons_self)
          rw [he]
          exact .one hmember
      | more h hrest =>
          obtain ⟨s, he, hmember⟩ := h.member (hP e List.mem_cons_self)
          rw [he]
          exact .more hmember (ih hrest fun w hw => hP w (List.mem_cons_of_mem e hw))

/-- What denotes a value within the bounds tells it. -/
theorem Denotes.tells {depth : Nat} {v : Value} (hv : IsBounded depth v) {cs : List Char}
    (h : Denotes cs v) : Tells depth cs v := by
  induction hv generalizing cs with
  | @flat depth v hflat =>
      cases depth with
      | zero => exact ⟨h, hflat⟩
      | succ depth => exact .inl ⟨h, hflat⟩
  | @list depth vs hvs ih =>
      right
      cases h with
      | noItems h => exact .noItems h
      | items h => exact .items (h.items fun v hv => ih v hv)
  | @mapping depth entries hentries ih =>
      right
      cases h with
      | noMembers h => exact .noMembers h
      | members h once =>
          have hmembers := Nested.members (h.members fun e he => ih e he)
          rwa [Value.insertAll_of_isObject once] at hmembers

/-- A text of a value within the bounds is read as that value. -/
theorem read_of_isText {cs : List Char} {v : Value} (hv : IsBounded maxDepth v)
    (h : IsText cs v) : read cs = .ok v := by
  obtain ⟨before, inner, behind, hbefore, hinner, hbehind, rfl⟩ := h
  exact read_of_tellsText ⟨before, inner, behind, hbefore, hinner.tells hv, hbehind, rfl⟩

end ImportAudit.Json
