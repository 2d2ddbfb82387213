/-
# ImportAudit.Proofs.Json.Values — JSON values on one line.

A JSON value has finite numbers, integers that are not too long to be read, and objects for mappings
(`IsValue`).  What is written for it is a text of it and is read as it by every reader that lets as
many arrays and objects lie in one another (`readValue_render`).  In the form of log records it is
written with printable characters of ASCII only, so on one line (`printable_write`).
-/
import ImportAudit.Proofs.Json.Decoding
import ImportAudit.Proofs.Json.Floats

namespace ImportAudit.Json

/-- A value that JSON has: its numbers are finite, its integers have few digits, and its mappings
are objects. -/
inductive IsValue : Value → Prop
  | null : IsValue .null
  | bool (b : Bool) : IsValue (.bool b)
  | int {i : Int} (few : FewDigits i) : IsValue (.int i)
  | float (negative : Bool) {mantissa : Nat} {exponent : Int}
      (h : Number.IsCanonical mantissa exponent) :
      IsValue (.float (.finite negative mantissa exponent))
  | text (s : String) : IsValue (.text s)
  | list {vs : List Value} (h : ∀ v ∈ vs, IsValue v) : IsValue (.list vs)
  | mapping {entries : List (Value × Value)} (once : Value.IsObject entries)
      (h : ∀ e ∈ entries, IsValue e.2) : IsValue (.mapping entries)

variable {v : Value}

theorem IsValue.isDenotable (h : IsValue v) : IsDenotable v := by
  induction h with
  | null => exact .null
  | bool b => exact .bool b
  | int few => exact .int _
  | float negative h => exact .float (denotes_float negative h)
  | text s => exact .text s
  | list _ ih => exact .list ih
  | mapping once _ ih => exact .mapping once ih

/-! ## Depth -/

theorem IsBounded.mono {depth depth' : Nat} (h : IsBounded depth v) (hle : depth ≤ depth') :
    IsBounded depth' v := by
  induction h generalizing depth' with
  | flat h => exact .flat h
  | list _ ih =>
      cases depth' with
      | zero => cases hle
      | succ depth' => exact .list fun v hv => ih v hv (Nat.le_of_succ_le_succ hle)
  | mapping _ ih =>
      cases depth' with
      | zero => cases hle
      | succ depth' => exact .mapping fun e he => ih e he (Nat.le_of_succ_le_succ hle)

/-- Values of some depth each are no deeper than the deepest of them. -/
theorem exists_isBounded_all {vs : List Value} (h : ∀ v ∈ vs, ∃ depth, IsBounded depth v) :
    ∃ depth, ∀ v ∈ vs, IsBounded depth v := by
  induction vs with
  | nil => exact ⟨0, List.forall_mem_nil _⟩
  | cons v vs ih =>
      rw [List.forall_mem_cons] at h
      obtain ⟨d, hd⟩ := h.1
      obtain ⟨ds, hds⟩ := ih h.2
      exact ⟨max d ds, List.forall_mem_cons.mpr ⟨hd.mono (Nat.le_max_left d ds),
        fun w hw => (hds w hw).mono (Nat.le_max_right d ds)⟩⟩

theorem IsValue.exists_isBounded (h : IsValue v) : ∃ depth, IsBounded depth v := by
  induction h with
  | null => exact ⟨0, .flat trivial⟩
  | bool b => exact ⟨0, .flat trivial⟩
  | int few => exact ⟨0, .flat few⟩
  | float negative h => exact ⟨0, .flat trivial⟩
  | text s => exact ⟨0, .flat trivial⟩
  | list _ ih =>
      obtain ⟨depth, hdepth⟩ := exists_isBounded_all ih
      exact ⟨depth + 1, .list hdepth⟩
  | @mapping entries _ _ ih =>
      have hall : ∀ v ∈ entries.map (·.2), ∃ depth, IsBounded depth v := by
        intro v hv
        obtain ⟨e, he, rfl⟩ := List.mem_map.mp hv
        exact ih e he
      obtain ⟨depth, hdepth⟩ := exists_isBounded_all hall
      exact ⟨depth + 1, .mapping fun e he => hdepth e.2 (List.mem_map_of_mem he)⟩

/-- What is written for a value is read as the value, wherever that is no deeper than is let pass.
-/
theorem readValue_render (h : IsValue v) (style : Style) {depth : Nat} (hdepth : IsBounded depth v)
    {size : Nat} (hsize : (render style v).toList.length < size) :
    readValue size depth (render style v).toList = .ok (v, []) := by
  have htells := (denotes_write h.isDenotable style 0).tells hdepth
  have hread := (reads_tells size depth).read htells isEnd_nil
  rw [List.append_nil] at hread
  exact hread hsize

/-! ## Printable characters -/

/-- A character of ASCII that is not a control. -/
def IsPrintable (c : Char) : Prop := 0x20 ≤ c.toNat ∧ c.toNat < 0x7F

instance (c : Char) : Decidable (IsPrintable c) :=
  inferInstanceAs (Decidable (0x20 ≤ c.toNat ∧ c.toNat < 0x7F))

/-- All characters of a text are printable. -/
def Printable (cs : List Char) : Prop := ∀ c ∈ cs, IsPrintable c

instance (cs : List Char) : Decidable (Printable cs) := List.decidableBAll IsPrintable cs

theorem Printable.append {cs ds : List Char} (h : Printable cs) (h' : Printable ds) :
    Printable (cs ++ ds) := by
  intro c hc
  rcases List.mem_append.mp hc with hc | hc
  · exact h c hc
  · exact h' c hc

theorem Printable.cons {c : Char} {cs : List Char} (h : IsPrintable c) (h' : Printable cs) :
    Printable (c :: cs) := List.forall_mem_cons.mpr ⟨h, h'⟩

theorem printable_digits {ds : List Char} (h : ∀ d ∈ ds, d.isDigit = true) : Printable ds := by
  intro d hd
  have hdigit := h d hd
  simp only [Char.isDigit, Bool.and_eq_true, decide_eq_true_eq] at hdigit
  have hlow : '0'.toNat ≤ d.toNat := hdigit.1
  have hhigh : d.toNat ≤ '9'.toNat := hdigit.2
  have hzero : '0'.toNat = 48 := rfl
  have hnine : '9'.toNat = 57 := rfl
  exact ⟨by omega, by omega⟩

theorem printable_sign (negative : Bool) : Printable (sign negative) := by
  cases negative <;> decide

theorem IsExponent.printable {cs : List Char} {e : Int} (h : IsExponent cs e) : Printable cs := by
  cases h with
  | absent => exact nofun
  | plain hmark h =>
      refine .cons ?_ (printable_digits h.digit)
      rcases hmark with rfl | rfl <;> decide
  | plus hmark h =>
      refine .cons ?_ (.cons (by decide) (printable_digits h.digit))
      rcases hmark with rfl | rfl <;> decide
  | minus hmark h =>
      refine .cons ?_ (.cons (by decide) (printable_digits h.digit))
      rcases hmark with rfl | rfl <;> decide

theorem Denotes.printable_int {cs : List Char} {i : Int} (h : Denotes cs (.int i)) :
    Printable cs := by
  cases h with
  | integer negative h => exact (printable_sign negative).append (printable_digits h.digit)

theorem Denotes.printable_float {cs : List Char} {x : Number.Binary64}
    (h : Denotes cs (.float x)) : Printable cs := by
  cases h with
  | decimal negative h fraction scale some =>
      refine (((printable_sign negative).append (printable_digits h.digit)).append ?_).append
        scale.printable
      cases fraction with
      | absent => exact nofun
      | present hplaces => exact .cons (by decide) (printable_digits hplaces.digit)

theorem printable_unitEscape {n : Nat} (h : n < 0x10000) : Printable (unitEscape n) := by
  have hdigit : ∀ d < 16, IsPrintable (Nat.digitChar d) := by decide
  rw [unitEscape, hexDigits_four h]
  refine .cons (by decide) (.cons (by decide) ?_)
  simp only [Printable, List.forall_mem_cons]
  exact ⟨hdigit _ (by omega), hdigit _ (by omega), hdigit _ (by omega), hdigit _ (by omega),
    List.forall_mem_nil _⟩

theorem printable_stringChar (c : Char) : Printable (stringChar true c) := by
  have hmax := toNat_lt c
  unfold stringChar
  split
  · decide
  · decide
  · decide
  · decide
  · decide
  · split
    · decide
    · split
      · decide
      · split
        · exact printable_unitEscape (by omega)
        · split
          · unfold charEscape
            dsimp only
            split
            · exact printable_unitEscape (by omega)
            · exact (printable_unitEscape (by omega)).append (printable_unitEscape (by omega))
          · next hprintable =>
              rw [Bool.true_and, decide_eq_true_eq] at hprintable
              exact .cons ⟨by omega, by omega⟩ (List.forall_mem_nil _)

theorem printable_writeString (s : String) : Printable (writeString true s).toList := by
  rw [toList_writeString]
  refine .append (.cons (by decide) fun c hc => ?_) (by decide)
  obtain ⟨d, -, hd⟩ := List.mem_flatMap.mp hc
  exact printable_stringChar d c hd

/-- On one line nothing but a blank stands between what is written. -/
theorem newline_line (level : Nat) : Style.line.newline level = "" := rfl

theorem separator_line (level : Nat) : Style.line.separator level = ", " := rfl

theorem printable_writeItems {level : Nat} {vs : List Value}
    (h : ∀ v ∈ vs, Printable (write .line level v).toList) :
    Printable (writeItems .line level vs).toList := by
  induction vs with
  | nil => exact nofun
  | cons v vs ih =>
      rw [List.forall_mem_cons] at h
      rw [writeItems, separator_line, String.toList_append, String.toList_append]
      exact (Printable.append (by decide) h.1).append (ih h.2)

theorem printable_writeMembers {level : Nat} {entries : List (Value × Value)}
    (h : ∀ e ∈ entries, Printable (write .line level e.2).toList) :
    Printable (writeMembers .line level entries).toList := by
  induction entries with
  | nil => exact nofun
  | cons e entries ih =>
      obtain ⟨k, v⟩ := e
      rw [List.forall_mem_cons] at h
      rw [writeMembers, separator_line]
      simp only [String.toList_append]
      exact (((Printable.append (by decide) (printable_writeString _)).append
        (by decide)).append h.1).append (ih h.2)

/-- In the form of log records, values are written with printable characters. -/
theorem printable_write (h : IsValue v) (level : Nat) :
    Printable (write .line level v).toList := by
  induction h generalizing level with
  | null =>
      rw [write]
      decide
  | bool b =>
      rw [write]
      cases b <;> decide
  | @int i few =>
      rw [write]
      exact (denotes_int i).printable_int
  | float negative h =>
      rw [write]
      exact (denotes_float negative h).printable_float
  | text s =>
      rw [write]
      exact printable_writeString s
  | @list vs _ ih =>
      cases vs with
      | nil =>
          rw [write]
          decide
      | cons v vs =>
          rw [List.forall_mem_cons] at ih
          rw [write, newline_line, newline_line]
          simp only [String.toList_append]
          exact (((Printable.append (by decide) (ih.1 _)).append
            (printable_writeItems fun w hw => ih.2 w hw _)).append (by decide)).append (by decide)
  | @mapping entries _ _ ih =>
      cases entries with
      | nil =>
          rw [write]
          decide
      | cons e entries =>
          obtain ⟨k, v⟩ := e
          rw [List.forall_mem_cons] at ih
          rw [write, newline_line, newline_line]
          simp only [String.toList_append]
          exact (((((Printable.append (by decide) (printable_writeString _)).append
            (by decide)).append (ih.1 _)).append
            (printable_writeMembers fun w hw => ih.2 w hw _)).append (by decide)).append (by decide)

end ImportAudit.Json
