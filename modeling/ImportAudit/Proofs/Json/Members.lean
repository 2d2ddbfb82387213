/-
# ImportAudit.Proofs.Json.Members — objects have each name once.

A name that an object gives twice has the value that it was given last.  What the reader returns for
an object is therefore a list of entries with texts for keys and no key twice
(`isObject_of_read`), and looking a name up in it finds the entry of that name, wherever it stands
(`lookup_eq_some_iff`).
-/
import ImportAudit.Json.Reader
import Mathlib.Data.List.Basic

namespace ImportAudit

namespace Value

variable {entries : List (Value × Value)}

/-! ## Entries of an object -/

theorem mem_textKeys {name : String} :
    name ∈ textKeys entries ↔ ∃ v, (.text name, v) ∈ entries := by
  unfold textKeys
  rw [List.mem_filterMap]
  constructor
  · rintro ⟨⟨k, v⟩, he, hk⟩
    cases k with
    | text s => cases hk; exact ⟨v, he⟩
    | _ => cases hk
  · rintro ⟨v, he⟩
    exact ⟨(.text name, v), he, rfl⟩

/-- The entries are those of an object: their keys are texts, and no two have the same. -/
inductive IsObject : List (Value × Value) → Prop
  | nil : IsObject []
  | cons {name : String} {v : Value} {entries : List (Value × Value)}
      (new : name ∉ textKeys entries) (rest : IsObject entries) :
      IsObject ((.text name, v) :: entries)

theorem IsObject.exists_name (h : IsObject entries) : ∀ e ∈ entries, ∃ name, e.1 = .text name := by
  induction h with
  | nil => exact List.forall_mem_nil _
  | cons new rest ih => exact List.forall_mem_cons.mpr ⟨⟨_, rfl⟩, ih⟩

theorem insertEntry_text_cons (name key : String) (value v : Value) :
    insertEntry (.text key) value ((.text name, v) :: entries) =
      if name = key then (.text name, value) :: entries
      else (.text name, v) :: insertEntry (.text key) value entries := by
  simp only [insertEntry, sameKey, beq_iff_eq]

theorem textKeys_text_cons (name : String) (v : Value) :
    textKeys ((.text name, v) :: entries) = name :: textKeys entries := rfl

/-- A name that is given a value is one more unless it was there before. -/
theorem textKeys_insertEntry (h : IsObject entries) (key : String) (value : Value) :
    textKeys (insertEntry (.text key) value entries) =
      if key ∈ textKeys entries then textKeys entries else textKeys entries ++ [key] := by
  induction h with
  | nil => rfl
  | @cons name v entries new rest ih =>
      rw [insertEntry_text_cons]
      by_cases hname : name = key
      · rw [if_pos hname, if_pos (by rw [textKeys_text_cons, hname]; exact List.mem_cons_self)]
        rfl
      · rw [if_neg hname, textKeys_text_cons, textKeys_text_cons, ih]
        simp only [List.mem_cons, Ne.symm hname, false_or]
        split <;> rfl

/-- An object stays one when a name is given a value. -/
theorem IsObject.insertEntry (h : IsObject entries) (key : String) (value : Value) :
    IsObject (insertEntry (.text key) value entries) := by
  induction h with
  | nil => exact .cons List.not_mem_nil .nil
  | @cons name v entries new rest ih =>
      rw [insertEntry_text_cons]
      split
      · exact .cons new rest
      · next hname =>
          refine .cons ?_ ih
          rw [textKeys_insertEntry rest]
          split
          · exact new
          · simpa [new] using hname

/-- A name that was not there before is given its value behind all others. -/
theorem insertEntry_of_not_mem (h : IsObject entries) {key : String} (hkey : key ∉ textKeys entries)
    (value : Value) :
    Value.insertEntry (.text key) value entries = entries ++ [(.text key, value)] := by
  induction h with
  | nil => rfl
  | @cons name v entries new rest ih =>
      rw [textKeys_text_cons, List.mem_cons, not_or] at hkey
      rw [insertEntry_text_cons, if_neg (Ne.symm hkey.1), ih hkey.2]
      rfl

/-- Names that are given one after the other, each once, are the entries of an object as they are. -/
theorem insertAll_of_isObject (h : IsObject entries) : insertAll entries = entries := by
  have hall : ∀ before, IsObject before → (∀ key ∈ textKeys entries, key ∉ textKeys before) →
      entries.foldl (fun es e => Value.insertEntry e.1 e.2 es) before = before ++ entries := by
    induction h with
    | nil => exact fun before _ _ => (List.append_nil before).symm
    | @cons name v entries new rest ih =>
        intro before hbefore hnew
        have hname : name ∉ textKeys before := hnew name List.mem_cons_self
        have hinsert := insertEntry_of_not_mem hbefore hname v
        rw [List.foldl_cons, ih _ (hbefore.insertEntry name v), hinsert, List.append_assoc]
        · rfl
        · -- the names behind are neither those before nor this one
          intro key hkey
          rw [textKeys_insertEntry hbefore, if_neg hname, List.mem_append, List.mem_singleton,
            not_or]
          refine ⟨hnew key (List.mem_cons_of_mem name hkey), ?_⟩
          rintro rfl
          exact new hkey
  exact hall [] .nil fun _ _ => List.not_mem_nil

/-- Entries are those of an object if their keys are texts and no text is a key twice. -/
theorem isObject_iff :
    IsObject entries ↔
      (∀ e ∈ entries, ∃ name, e.1 = .text name) ∧ (textKeys entries).Nodup := by
  constructor
  · intro h
    refine ⟨h.exists_name, ?_⟩
    induction h with
    | nil => exact List.nodup_nil
    | cons new rest ih => exact List.nodup_cons.mpr ⟨new, ih⟩
  · rintro ⟨hnames, hnodup⟩
    induction entries with
    | nil => exact .nil
    | cons e entries ih =>
        obtain ⟨k, v⟩ := e
        rw [List.forall_mem_cons] at hnames
        obtain ⟨⟨name, rfl⟩, hrest⟩ := hnames
        rw [textKeys_text_cons, List.nodup_cons] at hnodup
        exact .cons hnodup.1 (ih hrest hnodup.2)

/-- The entries of an object may stand in any order. -/
theorem IsObject.perm {entries' : List (Value × Value)} (h : IsObject entries)
    (hperm : entries.Perm entries') : IsObject entries' := by
  obtain ⟨hnames, hnodup⟩ := isObject_iff.mp h
  refine isObject_iff.mpr ⟨fun e he => hnames e (hperm.mem_iff.mpr he), ?_⟩
  exact (hperm.filterMap _).nodup_iff.mp hnodup

/-- Looking a name up finds its entry, wherever that stands. -/
theorem lookup_eq_some_iff (h : IsObject entries) {key : String} {value : Value} :
    lookup key entries = some value ↔ (.text key, value) ∈ entries := by
  induction h with
  | nil => exact ⟨nofun, nofun⟩
  | @cons name v entries new rest ih =>
      -- the first entry is found under its name, and no other has that name
      rw [lookup, List.mem_cons]
      by_cases hname : name = key
      · subst hname
        have habsent : (.text name, value) ∉ entries := fun hmem => new (mem_textKeys.mpr ⟨_, hmem⟩)
        rw [if_pos rfl, or_iff_left habsent]
        exact ⟨fun heq => by cases heq; rfl, fun heq => by cases heq; rfl⟩
      · rw [if_neg hname, ih, or_iff_right]
        rintro heq
        cases heq
        exact hname rfl

/-- What a name is looked up as does not depend on the order of the entries. -/
theorem lookup_perm {entries' : List (Value × Value)} (h : IsObject entries)
    (hperm : entries.Perm entries') (key : String) : lookup key entries' = lookup key entries := by
  refine Option.ext fun value => ?_
  rw [lookup_eq_some_iff h, lookup_eq_some_iff (h.perm hperm), hperm.mem_iff]

end Value

/-! ## Reading objects -/

namespace Json

theorem isObject_of_readMembers {size : Nat}
    {readValue : List Char → Except Fault (Value × List Char)} {fuel : Nat}
    {members result : List (Value × Value)} {cs rest : List Char} (h : Value.IsObject members)
    (hread : readMembers size readValue fuel members cs = .ok (result, rest)) :
    Value.IsObject result := by
  induction fuel generalizing members cs with
  | zero => cases hread
  | succ fuel ih =>
      unfold readMembers at hread
      split at hread
      · cases hread
      · next name _ _ =>
          split at hread
          · cases hread
          · next v _ _ =>
              dsimp only at hread
              split at hread
              · cases hread
                exact h.insertEntry name v
              · exact ih (h.insertEntry name v) hread
              · cases hread

theorem readName?_ne_mapping {cs rest : List Char} {members : List (Value × Value)} :
    readName? cs ≠ some (.mapping members, rest) := by
  intro h
  obtain ⟨⟨name, v⟩, hmem, hname⟩ := List.exists_of_findSome?_eq_some h
  dsimp only at hname
  split at hname
  · cases hname
    simp [names] at hmem
  · cases hname

theorem readNumber_ne_mapping {cs rest : List Char} {members : List (Value × Value)} :
    readNumber cs ≠ .ok (.mapping members, rest) := by
  intro h
  unfold readNumber at h
  dsimp only at h
  split at h
  · cases h
  · split at h
    · cases h
    · next v hv =>
        cases h
        unfold numberValue at hv
        split at hv
        · split at hv <;> cases hv
        · cases hv

theorem isObject_of_readValue {size depth : Nat} {cs rest : List Char}
    {members : List (Value × Value)}
    (h : readValue size depth cs = .ok (.mapping members, rest)) : Value.IsObject members := by
  unfold readValue at h
  split at h
  · cases h
  · split at h <;> cases h
  · split at h
    · cases h
    · split at h
      · cases h
      · split at h <;> cases h
  · split at h
    · cases h
    · split at h
      · cases h
        exact .nil
      · split at h
        · cases h
        · next hmembers =>
            cases h
            exact isObject_of_readMembers .nil hmembers
  · split at h
    · next hname =>
        cases h
        exact absurd hname readName?_ne_mapping
    · exact absurd h readNumber_ne_mapping

/-- A text that is read as an object has each name once. -/
theorem isObject_of_read {text : List Char} {members : List (Value × Value)}
    (h : read text = .ok (.mapping members)) : Value.IsObject members := by
  unfold read at h
  split at h
  · cases h
  · split at h
    · cases h
    · next v rest hv =>
        split at h
        · cases h
          exact isObject_of_readValue hv
        · cases h

end Json

end ImportAudit
