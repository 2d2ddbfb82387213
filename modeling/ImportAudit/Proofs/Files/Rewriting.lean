/-
# ImportAudit.Proofs.Files.Rewriting — a file that is given other bytes.

On the way along a path it matters what the entries are, but not what the files hold.  So two trees
that differ in what files hold lead to the same places (`locate_sameShape`), and where one file is
given other bytes, these are read by the paths that lead to it, and all other paths read what they
read before (`read_rewritten`).  A file that is read by a path can be written by it too
(`write_of_read`).
-/
import ImportAudit.Proofs.Files.Writing

namespace ImportAudit.Files

/-- What an entry is, without what it holds if it is a file. -/
def Entry.emptied : Entry → Entry
  | .file _ => .file []
  | e => e

namespace Tree

variable {t t' : Tree} {place workingDir : Place} {path : String} {bytes bytes' : List UInt8}

/-! ## Trees of the same shape -/

/-- The trees differ in what their files hold at most. -/
def SameShape (t t' : Tree) : Prop :=
  ∀ place, (t.entry? place).map Entry.emptied = (t'.entry? place).map Entry.emptied

/-- An entry is there in both trees, and it is a file, a directory or a link in both. -/
theorem SameShape.entry_cases (h : t.SameShape t') (place : Place) :
    t.entry? place = t'.entry? place ∨
      ∃ bytes bytes', t.entry? place = some (.file bytes) ∧
        t'.entry? place = some (.file bytes') := by
  have hplace := h place
  cases hentry : t.entry? place with
  | none =>
      rw [hentry] at hplace
      exact .inl (Option.map_eq_none_iff.mp hplace.symm).symm
  | some e =>
      rw [hentry, Option.map_some] at hplace
      obtain ⟨e', hentry', hkind⟩ := Option.map_eq_some_iff.mp hplace.symm
      rw [hentry']
      cases e <;> cases e' <;> cases hkind
      · exact .inr ⟨_, _, rfl, rfl⟩
      · exact .inl rfl
      · exact .inl rfl

theorem walk_sameShape (h : t.SameShape t') {through create : Bool}
    {again again' : Place → List String → Except Refusal Place}
    (hagain : ∀ place names, again place names = again' place names) (place : Place)
    (names : List String) :
    t.walk through create again place names = t'.walk through create again' place names := by
  induction names generalizing place with
  | nil => rfl
  | cons name names ih =>
      rw [walk, walk]
      split
      · exact ih place
      · split
        · exact ih place.dropLast
        · split
          · rfl
          · rcases h.entry_cases (place ++ [name]) with hsame | ⟨_, _, hfile, hfile'⟩
            · -- the same entry leads on in the same way
              dsimp only
              rw [hsame]
              simp only [ih, hagain]
            · simp only [hfile, hfile']

theorem follow_sameShape (h : t.SameShape t') {through create : Bool} (links : Nat)
    (place : Place) (names : List String) :
    t.follow through create links place names = t'.follow through create links place names := by
  induction links generalizing place names with
  | zero => exact walk_sameShape h (fun _ _ => rfl) place names
  | succ links ih => exact walk_sameShape h ih place names

/-- Paths lead to the same places. -/
theorem locate_sameShape (h : t.SameShape t') (through create : Bool) (workingDir : Place)
    (path : String) :
    t.locate through create workingDir path = t'.locate through create workingDir path := by
  unfold locate
  simp only [follow_sameShape h]

/-- What is there in one tree is there in the other. -/
theorem hasEntry_sameShape (h : t.SameShape t') (workingDir : Place) (path : String) :
    t.hasEntry workingDir path = t'.hasEntry workingDir path := by
  unfold hasEntry look find
  rw [locate_sameShape h]
  cases t'.locate true false workingDir path with
  | error r => rfl
  | ok place =>
      dsimp only
      rcases h.entry_cases place with hsame | ⟨_, _, hfile, hfile'⟩
      · rw [hsame]
      · rw [hfile, hfile']
        rfl

/-! ## One file -/

/-- A file does not lie where the root is. -/
theorem ne_nil_of_file (hfile : t.entry? place = some (.file bytes)) : place ≠ [] := by
  apply ne_nil_of_not_directory (t := t)
  rw [hfile]
  exact nofun

/-- A tree in which a file is given other bytes has the same shape. -/
theorem sameShape_put (hfile : t.entry? place = some (.file bytes)) (bytes' : List UInt8) :
    (t.put place (.file bytes')).SameShape t := by
  intro q
  rw [entry?_put t (ne_nil_of_file hfile)]
  split
  · next hq =>
      rw [hq, hfile]
      rfl
  · rfl

/-- A path by which a file is read leads to the place of that file. -/
theorem read_eq_ok_iff :
    t.read workingDir path = .ok bytes ↔
      ∃ place, t.locate true false workingDir path = .ok place ∧
        t.entry? place = some (.file bytes) := by
  unfold read find
  cases t.locate true false workingDir path with
  | error r => simp
  | ok place =>
      dsimp only
      cases hentry : t.entry? place with
      | none => simp [hentry]
      | some e => cases e <;> simp [hentry]

theorem find_of_read (h : t.read workingDir path = .ok bytes) :
    t.find workingDir path = .ok (.file bytes) := by
  obtain ⟨place, hlocate, hfile⟩ := read_eq_ok_iff.mp h
  unfold find
  rw [hlocate]
  dsimp only
  rw [hfile]

/-- Where a file is given other bytes, a path reads these in place of what the file held, or it does
not lead to the file and reads what it read before. -/
theorem read_rewritten (hfile : t.entry? place = some (.file bytes)) (bytes' : List UInt8)
    (workingDir : Place) (path : String) :
    t.read workingDir path = .ok bytes ∧
        (t.put place (.file bytes')).read workingDir path = .ok bytes' ∨
      (t.put place (.file bytes')).read workingDir path = t.read workingDir path := by
  have hroot := ne_nil_of_file hfile
  have hlocate := locate_sameShape (sameShape_put hfile bytes') true false workingDir path
  by_cases hleads : t.locate true false workingDir path = .ok place
  · left
    rw [read_eq_ok_iff, read_eq_ok_iff, hlocate]
    refine ⟨⟨place, hleads, hfile⟩, place, hleads, ?_⟩
    rw [entry?_put t hroot, if_pos rfl]
  · right
    unfold read find
    rw [hlocate]
    cases hother : t.locate true false workingDir path with
    | error r => rfl
    | ok q =>
        have hne : q ≠ place := by
          rintro rfl
          exact hleads hother
        dsimp only
        rw [entry?_put t hroot, if_neg hne]

/-! ## Writing to a file that is there -/

/-- Names that lead somewhere lead there also if something might be made. -/
theorem walk_create {again again' : Place → List String → Except Refusal Place} {start : Place}
    {names : List String}
    (hagain : ∀ {start names}, again start names = .ok place → again' start names = .ok place)
    (h : t.walk true false again start names = .ok place) :
    t.walk true true again' start names = .ok place := by
  induction names generalizing start with
  | nil => exact h
  | cons name names ih =>
      rw [walk] at h ⊢
      split at h
      · next hdot =>
          rw [if_pos hdot]
          exact ih h
      · next hdot =>
          rw [if_neg hdot]
          split at h
          · next hdots =>
              rw [if_pos hdots]
              exact ih h
          · next hdots =>
              rw [if_neg hdots]
              split at h
              · cases h
              · next hlong =>
                  rw [if_neg hlong]
                  dsimp only at h ⊢
                  cases hentry : t.entry? (start ++ [name]) with
                  | none =>
                      rw [hentry] at h
                      simp at h
                  | some e =>
                      rw [hentry] at h
                      cases e with
                      | file bytes => exact h
                      | directory => exact ih h
                      | link target =>
                          simp only [Bool.not_true, Bool.false_eq_true, and_false, if_false] at h ⊢
                          exact hagain h

theorem follow_create {links : Nat} {start : Place} {names : List String}
    (h : t.follow true false links start names = .ok place) :
    t.follow true true links start names = .ok place := by
  induction links generalizing start names with
  | zero => exact walk_create (fun hagain => by cases hagain) h
  | succ links ih => exact walk_create ih h

/-- A file that is read by a path can be written by it too, whatever it is to hold. -/
theorem write_of_read (h : t.read workingDir path = .ok bytes) :
    ∃ place, t.entry? place = some (.file bytes) ∧
      ∀ bytes', t.write workingDir path bytes' = .ok (t.put place (.file bytes')) := by
  obtain ⟨place, hlocate, hfile⟩ := read_eq_ok_iff.mp h
  have hcreate : t.locate true true workingDir path = .ok place := by
    unfold locate at hlocate ⊢
    split at hlocate
    · cases hlocate
    · next hempty =>
        rw [if_neg hempty]
        split at hlocate
        · cases hlocate
        · next hlong =>
            rw [if_neg hlong]
            exact follow_create hlocate
  have hnot : t.entry? place ≠ some .directory := by
    rw [hfile]
    exact nofun
  exact ⟨place, hfile, fun _ => write_eq_ok_iff.mpr ⟨place, hcreate, hnot, rfl⟩⟩

end Tree

end ImportAudit.Files
