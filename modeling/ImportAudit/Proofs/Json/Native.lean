/-
# ImportAudit.Proofs.Json.Native — the values that a JSON text stands for.

What is read of a JSON text is native: nothing in it is of a type that only other formats can write,
and its mappings are objects (`isNative_of_read`).  Unless it is a text or infinite, what such a
value is written like begins with a sign, a bracket, a digit or the first letter of a name
(`isMarked_plain`).
-/
import ImportAudit.Proofs.Json.Members
import Mathlib.Tactic.IntervalCases

namespace ImportAudit

/-! ## Changing entries -/

theorem Value.forall_insertEntry {P : Value → Prop} {key value : Value}
    {entries : List (Value × Value)} (h : ∀ e ∈ entries, P e.2) (hvalue : P value) :
    ∀ e ∈ insertEntry key value entries, P e.2 := by
  induction entries with
  | nil =>
      intro e he
      rw [List.mem_singleton.mp he]
      exact hvalue
  | cons first entries ih =>
      obtain ⟨k, v⟩ := first
      rw [List.forall_mem_cons] at h
      rw [insertEntry]
      split
      · exact List.forall_mem_cons.mpr ⟨hvalue, h.2⟩
      · exact List.forall_mem_cons.mpr ⟨h.1, ih h.2⟩

namespace Json

/-- A value that a JSON text can stand for: nothing in it is of a type that only other formats can
write, and its mappings are objects. -/
inductive IsNative : Value → Prop
  | null : IsNative .null
  | bool (b : Bool) : IsNative (.bool b)
  | int (i : Int) : IsNative (.int i)
  | float (x : Number.Binary64) : IsNative (.float x)
  | text (s : String) : IsNative (.text s)
  | list {vs : List Value} (h : ∀ v ∈ vs, IsNative v) : IsNative (.list vs)
  | mapping {entries : List (Value × Value)} (once : Value.IsObject entries)
      (h : ∀ e ∈ entries, IsNative e.2) : IsNative (.mapping entries)

/-! ## Reading -/

section

variable {size : Nat} {readValue : List Char → Except Fault (Value × List Char)} {fuel : Nat}
  {cs rest : List Char}

theorem isNative_of_readItems
    (hvalue : ∀ {cs v rest}, readValue cs = .ok (v, rest) → IsNative v)
    {items result : List Value} (hitems : ∀ v ∈ items, IsNative v)
    (h : readItems readValue fuel items cs = .ok (result, rest)) : ∀ v ∈ result, IsNative v := by
  induction fuel generalizing items cs with
  | zero => cases h
  | succ fuel ih =>
      unfold readItems at h
      split at h
      · cases h
      · next v _ hv =>
          have hmore : ∀ w ∈ v :: items, IsNative w := List.forall_mem_cons.mpr ⟨hvalue hv, hitems⟩
          split at h
          · cases h
            exact fun w hw => hmore w (List.mem_reverse.mp hw)
          · exact ih hmore h
          · cases h

theorem isNative_of_readMembers
    (hvalue : ∀ {cs v rest}, readValue cs = .ok (v, rest) → IsNative v)
    {members result : List (Value × Value)} (hmembers : ∀ e ∈ members, IsNative e.2)
    (h : readMembers size readValue fuel members cs = .ok (result, rest)) :
    ∀ e ∈ result, IsNative e.2 := by
  induction fuel generalizing members cs with
  | zero => cases h
  | succ fuel ih =>
      unfold readMembers at h
      split at h
      · cases h
      · next name _ _ =>
          split at h
          · cases h
          · next v _ hv =>
              have hmore : ∀ e ∈ Value.insertEntry (.text name) v members, IsNative e.2 :=
                Value.forall_insertEntry hmembers (hvalue hv)
              dsimp only at h
              split at h
              · cases h
                exact hmore
              · exact ih hmore h
              · cases h

theorem isNative_of_readName? {v : Value} (h : readName? cs = some (v, rest)) : IsNative v := by
  obtain ⟨⟨name, w⟩, hmem, hname⟩ := List.exists_of_findSome?_eq_some h
  dsimp only at hname
  split at hname
  · cases hname
    simp only [names, List.mem_cons, Prod.mk.injEq, List.not_mem_nil, or_false] at hmem
    rcases hmem with ⟨-, rfl⟩ | ⟨-, rfl⟩ | ⟨-, rfl⟩ | ⟨-, rfl⟩ | ⟨-, rfl⟩ | ⟨-, rfl⟩
    · exact .null
    · exact .bool true
    · exact .bool false
    · exact .float _
    · exact .float _
    · exact .float _
  · cases hname

theorem isNative_of_readNumber {v : Value} (h : readNumber cs = .ok (v, rest)) : IsNative v := by
  unfold readNumber at h
  dsimp only at h
  split at h
  · cases h
  · split at h
    · cases h
    · next w hw =>
        cases h
        unfold numberValue at hw
        split at hw
        · split at hw <;> cases hw
          exact .int _
        · cases hw
          exact .float _

end

/-- A value is native if those that lie inside of it are. -/
theorem isNative_of_inner {size depth : Nat} {cs rest : List Char} {v : Value}
    (hinner : ∀ {inner cs w rest}, depth = inner + 1 → readValue size inner cs = .ok (w, rest) →
      IsNative w)
    (h : readValue size depth cs = .ok (v, rest)) : IsNative v := by
  unfold readValue at h
  split at h
  · cases h
  · split at h <;> cases h
    exact .text _
  · split at h
    · cases h
    · split at h
      · cases h
        exact .list (List.forall_mem_nil _)
      · split at h
        · cases h
        · next hitems =>
            cases h
            exact .list (isNative_of_readItems (hinner rfl) (List.forall_mem_nil _) hitems)
  · split at h
    · cases h
    · split at h
      · cases h
        exact .mapping .nil (List.forall_mem_nil _)
      · split at h
        · cases h
        · next hmembers =>
            cases h
            exact .mapping (isObject_of_readMembers .nil hmembers)
              (isNative_of_readMembers (hinner rfl) (List.forall_mem_nil _) hmembers)
  · split at h
    · next hname =>
        cases h
        exact isNative_of_readName? hname
    · exact isNative_of_readNumber h

theorem isNative_of_readValue {size depth : Nat} {cs rest : List Char} {v : Value}
    (h : readValue size depth cs = .ok (v, rest)) : IsNative v := by
  induction depth generalizing cs v rest with
  | zero =>
      refine isNative_of_inner (fun hdepth _ => ?_) h
      cases hdepth
  | succ depth ih =>
      refine isNative_of_inner (fun hdepth hread => ?_) h
      rw [← Nat.succ.inj hdepth] at hread
      exact ih hread

/-- What is read of a text is native. -/
theorem isNative_of_read {text : List Char} {v : Value} (h : read text = .ok v) : IsNative v := by
  unfold read at h
  split at h
  · cases h
  · split at h
    · cases h
    · next v rest hv =>
        split at h
        · cases h
          exact isNative_of_readValue hv
        · cases h

/-! ## How texts begin -/

/-- What the text of a value may begin with that is no text: a sign, a bracket, a digit, or the
first letter of a name. -/
def marks : List Char :=
  ['-', '[', '{', 'N', 'T', 'F', 'n', '0', '1', '2', '3', '4', '5', '6', '7', '8', '9']

/-- The text begins with a mark. -/
def IsMarked (text : String) : Prop := ∃ c ∈ marks, text.toList.head? = some c

theorem mem_marks_of_isDigit {c : Char} (h : c.isDigit = true) : c ∈ marks := by
  have hrange : 48 ≤ c.toNat ∧ c.toNat ≤ 57 := by
    simpa [Char.isDigit, UInt32.le_iff_toNat_le] using h
  obtain ⟨hlow, hhigh⟩ := hrange
  rw [← Char.ofNat_toNat c]
  interval_cases c.toNat <;> decide

theorem isMarked_of_digits {ds : List Char} (h : ∀ d ∈ ds, d.isDigit = true) (hne : ds ≠ []) :
    IsMarked (String.ofList ds) := by
  obtain ⟨d, rest, rfl⟩ := List.exists_cons_of_ne_nil hne
  exact ⟨d, mem_marks_of_isDigit (h d List.mem_cons_self), by rw [String.toList_ofList]; rfl⟩

theorem IsMarked.append {text : String} (h : IsMarked text) (more : String) :
    IsMarked (text ++ more) := by
  obtain ⟨c, hc, hhead⟩ := h
  refine ⟨c, hc, ?_⟩
  rw [String.toList_append, List.head?_append, hhead]
  rfl

theorem isMarked_nat (n : Nat) : IsMarked (toString n) := by
  show IsMarked n.repr
  rw [← String.ofList_toList (s := n.repr), Nat.toList_repr]
  exact isMarked_of_digits (fun d hd => Nat.isDigit_of_mem_toDigits (by omega) (by omega) hd)
    Nat.toDigits_ne_nil

theorem isMarked_int (i : Int) : IsMarked (toString i) := by
  rw [Int.toString_eq_repr, Int.repr_eq_if]
  split
  · exact isMarked_nat i.toNat
  · exact IsMarked.append ⟨'-', by decide, rfl⟩ _

theorem isMarked_placePoint {ds : List Char} (h : ∀ d ∈ ds, d.isDigit = true) (point : Int) :
    IsMarked (Number.placePoint ds point) := by
  have hzero : IsMarked "0" := ⟨'0', by decide, rfl⟩
  unfold Number.placePoint
  split
  · split
    · exact IsMarked.append ⟨'0', by decide, rfl⟩ _
    · next hpositive =>
        dsimp only
        split
        · -- the digits are filled up with zeros, so there is one before the point
          refine IsMarked.append (isMarked_of_digits (fun d hd => ?_) ?_) _
          · rcases List.mem_append.mp hd with hd | hd
            · exact h d hd
            · rw [List.eq_of_mem_replicate hd]
              rfl
          · intro hnil
            have hlength := congrArg List.length hnil
            rw [List.length_append, List.length_replicate, List.length_nil] at hlength
            omega
        · refine IsMarked.append (IsMarked.append (isMarked_of_digits (fun d hd => ?_) ?_) _) _
          · exact h d (List.mem_of_mem_take hd)
          · intro hnil
            have hlength := congrArg List.length hnil
            rw [List.length_take, List.length_nil] at hlength
            omega
  · dsimp only
    refine IsMarked.append (IsMarked.append (IsMarked.append ?_ _) _) _
    split
    · exact hzero
    · exact isMarked_of_digits h (List.cons_ne_nil _ _)
    · next d rest hmany =>
        have hfirst : ∀ c ∈ [d], c.isDigit = true := by
          intro c hc
          rw [List.mem_singleton.mp hc]
          exact h d List.mem_cons_self
        exact ((isMarked_of_digits hfirst (List.cons_ne_nil _ _)).append _).append _

/-- The text of a number begins with a mark, unless it is infinite. -/
theorem isMarked_toText {x : Number.Binary64} (h : x ≠ .infinite false) : IsMarked x.toText := by
  have hsign : ∀ {negative : Bool} {text : String}, (negative = true ∨ IsMarked text) →
      IsMarked (Number.Binary64.sign negative ++ text) := by
    intro negative text hmarked
    cases negative with
    | true => exact IsMarked.append ⟨'-', by decide, rfl⟩ _
    | false =>
        have hmarked := hmarked.resolve_left Bool.false_ne_true
        rwa [Number.Binary64.sign, if_neg Bool.false_ne_true, String.empty_append]
  unfold Number.Binary64.toText Number.Binary64.writeWith
  split
  · exact ⟨'n', by decide, rfl⟩
  · next negative =>
      refine hsign (.inl ?_)
      cases negative with
      | true => rfl
      | false => exact absurd rfl h
  · exact hsign (.inr ⟨'0', by decide, rfl⟩)
  · refine hsign (.inr (isMarked_placePoint (fun d hd => ?_) _))
    unfold Number.stripZeros at hd
    have hdigit := List.mem_reverse.mp (List.dropWhile_subset _ (List.mem_reverse.mp hd))
    exact Nat.isDigit_of_mem_toDigits (by omega) (by omega) hdigit

/-- The text of a native value that is no text begins with a mark, or the value is infinite. -/
theorem isMarked_plain {v : Value} (h : IsNative v) (htext : ∀ s, v ≠ .text s) :
    v = .float (.infinite false) ∨ IsMarked v.plain := by
  cases h with
  | null => exact .inr ⟨'N', by decide, rfl⟩
  | bool b =>
      cases b with
      | true => exact .inr ⟨'T', by decide, rfl⟩
      | false => exact .inr ⟨'F', by decide, rfl⟩
  | int i => exact .inr (isMarked_int i)
  | float x =>
      by_cases hinfinite : x = .infinite false
      · exact .inl (congrArg _ hinfinite)
      · exact .inr (isMarked_toText hinfinite)
  | text s => exact absurd rfl (htext s)
  | list hitems =>
      right
      rw [Value.plain, Value.nested]
      · exact IsMarked.append (IsMarked.append ⟨'[', by decide, rfl⟩ _) _
      · exact nofun
      · exact nofun
  | mapping once hentries =>
      right
      rw [Value.plain, Value.nested]
      · exact IsMarked.append (IsMarked.append ⟨'{', by decide, rfl⟩ _) _
      · exact nofun
      · exact nofun

end Json

end ImportAudit
