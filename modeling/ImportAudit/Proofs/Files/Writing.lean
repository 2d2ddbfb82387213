/-
# ImportAudit.Proofs.Files.Writing — what was written to a path is read from it.

Writing changes the entry of one place (`entry?_put`).  That place is no directory, and in a sound
tree no link either, as links on the way are followed (`not_link_of_locate`).  So the path leads
through the same directories and links afterwards and ends in the same place (`locate_put`), which
now is a file with what was written (`read_of_write`).  Whether something was there before can be
asked without writing (`hasEntry_of_locate`).
-/
import ImportAudit.Proofs.Files.Walk

namespace ImportAudit.Files.Tree

variable {t : Tree} {place start : Place} {bytes : List UInt8}

/-! ## One entry -/

theorem lookup_putEntry (place q : Place) (e : Entry) (entries : List (Place × Entry)) :
    (putEntry place e entries).lookup q = if q = place then some e else entries.lookup q := by
  have hne : ∀ {p : Place} {es : List (Place × Entry)} {f : Entry}, q ≠ p →
      List.lookup q ((p, f) :: es) = es.lookup q := by
    intro p es f hq
    rw [List.lookup_cons, beq_false_of_ne hq]
  induction entries with
  | nil =>
      by_cases hq : q = place
      · simp [putEntry, hq]
      · rw [putEntry, hne hq, if_neg hq]
  | cons d entries ih =>
      obtain ⟨p, f⟩ := d
      unfold putEntry
      by_cases hp : p = place
      · subst hp
        rw [if_pos rfl]
        by_cases hq : q = p
        · simp [hq]
        · rw [hne hq, hne hq, if_neg hq]
      · rw [if_neg hp]
        by_cases hq : q = p
        · subst hq
          simp [hp]
        · rw [hne hq, hne hq, ih]

/-- A place that was given an entry has it, and all others have what they had. -/
theorem entry?_put (t : Tree) {place : Place} (hplace : place ≠ []) (e : Entry) (q : Place) :
    entry? (t.put place e) q = if q = place then some e else t.entry? q := by
  unfold entry?
  by_cases hq : q = []
  · subst hq
    rw [if_pos rfl, if_neg (Ne.symm hplace), if_pos rfl]
  · rw [if_neg hq, if_neg hq, put, lookup_putEntry]

/-! ## The way to a place -/

theorem ne_nil_of_not_directory (h : t.entry? place ≠ some .directory) : place ≠ [] := by
  rintro rfl
  exact h rfl

/-- The place that something is written to is reached again, as no other place is changed. -/
theorem walk_put (hdirectory : t.entry? place ≠ some .directory)
    (hlink : ∀ target, t.entry? place ≠ some (.link target))
    {again again' : Place → List String → Except Refusal Place}
    (hagain : ∀ {start names}, again start names = .ok place → again' start names = .ok place)
    {names : List String} (h : t.walk true true again start names = .ok place) :
    (t.put place (.file bytes)).walk true false again' start names = .ok place := by
  have hentry := entry?_put t (ne_nil_of_not_directory hdirectory) (.file bytes)
  fun_induction walk t true true again start names with
  | case1 => exact h
  | case2 start rest ih =>
      rw [walk, if_pos rfl]
      exact ih h
  | case3 start rest hdot ih =>
      rw [walk, if_neg hdot, if_pos rfl]
      exact ih h
  | case5 start name rest hdot hdots hlong next hnone hcreate =>
      -- what was not there is the file now
      have hplace : start ++ [name] = place := Except.ok.inj h
      rw [walk, if_neg hdot, if_neg hdots, if_neg hlong]
      simp [hentry, hplace, hcreate.2]
  | case7 start name rest hdot hdots hlong next hnext ih =>
      have hne : start ++ [name] ≠ place := by
        intro heq
        rw [← heq] at hdirectory
        exact hdirectory hnext
      have hnext' : t.entry? (start ++ [name]) = some .directory := hnext
      rw [walk, if_neg hdot, if_neg hdots, if_neg hlong]
      simp only [hentry, if_neg hne, hnext']
      exact ih h
  | case8 start name hdot hdots hlong next =>
      have hplace : start ++ [name] = place := Except.ok.inj h
      rw [walk, if_neg hdot, if_neg hdots, if_neg hlong]
      simp [hentry, hplace]
  | case10 start name rest hdot hdots hlong next target hnext hthrough =>
      exact absurd hthrough.2 (by decide)
  | case11 start name rest hdot hdots hlong next target hnext hthrough absolute names hsteps =>
      have hne : start ++ [name] ≠ place := by
        intro heq
        exact hlink target (heq ▸ hnext)
      have hnext' : t.entry? (start ++ [name]) = some (.link target) := hnext
      rw [walk, if_neg hdot, if_neg hdots, if_neg hlong]
      simp only [hentry, if_neg hne, hnext', if_neg hthrough, hsteps]
      exact hagain h
  | case4 | case6 | case9 => cases h

theorem follow_put (hdirectory : t.entry? place ≠ some .directory)
    (hlink : ∀ target, t.entry? place ≠ some (.link target)) {links : Nat} {names : List String}
    (h : t.follow true true links start names = .ok place) :
    (t.put place (.file bytes)).follow true false links start names = .ok place := by
  induction links generalizing start names with
  | zero => exact walk_put hdirectory hlink (fun hagain => by cases hagain) h
  | succ links ih => exact walk_put hdirectory hlink ih h

theorem locate_put (hdirectory : t.entry? place ≠ some .directory)
    (hlink : ∀ target, t.entry? place ≠ some (.link target)) {workingDir : Place} {path : String}
    (h : t.locate true true workingDir path = .ok place) (bytes : List UInt8) :
    (t.put place (.file bytes)).locate true false workingDir path = .ok place := by
  unfold locate at h ⊢
  split
  · next hempty =>
      rw [if_pos hempty] at h
      cases h
  · next hempty =>
      rw [if_neg hempty] at h
      split
      · next hlong =>
          rw [if_pos hlong] at h
          cases h
      · next hlong =>
          rw [if_neg hlong] at h
          exact follow_put hdirectory hlink h

/-! ## Sound trees -/

/-- What holds a directory is one. -/
theorem Sound.directory_dropLast (h : t.Sound) (hplace : t.entry? place = some .directory) :
    t.entry? place.dropLast = some .directory := by
  by_cases hne : place = []
  · subst hne
    rfl
  · by_cases hlast : place.dropLast = []
    · rw [hlast]
      rfl
    · have hmem := (h.entry?_eq_some_iff hne).mp hplace
      exact (h.entry?_eq_some_iff hlast).mpr (h.inDirectory _ hmem hlast)

/-- From a directory no path leads to a link, if links are followed. -/
theorem not_link_of_walk (h : t.Sound) {create : Bool}
    {again : Place → List String → Except Refusal Place}
    (hagain : ∀ {start names}, t.entry? start = some .directory → again start names = .ok place →
      ∀ target, t.entry? place ≠ some (.link target))
    (hstart : t.entry? start = some .directory) {names : List String}
    (hwalk : t.walk true create again start names = .ok place) :
    ∀ target, t.entry? place ≠ some (.link target) := by
  have hother : ∀ {q : Place} {o : Option Entry}, t.entry? q = o →
      (.ok q : Except Refusal Place) = .ok place →
      (∀ target, o ≠ some (.link target)) → ∀ target, t.entry? place ≠ some (.link target) := by
    intro q o hq heq ho
    cases heq
    rwa [hq]
  fun_induction walk t true create again start names with
  | case1 => exact hother hstart hwalk (fun _ => nofun)
  | case2 start rest ih => exact ih hstart hwalk
  | case3 start rest hdot ih => exact ih (h.directory_dropLast hstart) hwalk
  | case5 start name rest hdot hdots hlong next hnone =>
      exact hother hnone hwalk (fun _ => nofun)
  | case7 start name rest hdot hdots hlong next hnext ih => exact ih hnext hwalk
  | case8 start name hdot hdots hlong next bytes hnext =>
      exact hother hnext hwalk (fun _ => nofun)
  | case10 start name rest hdot hdots hlong next target hnext hthrough =>
      exact absurd hthrough.2 (by decide)
  | case11 start name rest hdot hdots hlong next target hnext hthrough absolute names hsteps =>
      refine hagain ?_ hwalk
      split
      · rfl
      · exact hstart
  | case4 | case6 | case9 => cases hwalk

theorem not_link_of_follow (h : t.Sound) {create : Bool} {links : Nat}
    (hstart : t.entry? start = some .directory) {names : List String}
    (hfollow : t.follow true create links start names = .ok place) :
    ∀ target, t.entry? place ≠ some (.link target) := by
  induction links generalizing start names with
  | zero => exact not_link_of_walk h (fun _ hagain => by cases hagain) hstart hfollow
  | succ links ih =>
      exact not_link_of_walk h (fun hdir hagain => ih hdir hagain) hstart hfollow

theorem not_link_of_locate (h : t.Sound) {create : Bool} {workingDir : Place} {path : String}
    (hdir : t.entry? workingDir = some .directory)
    (hlocate : t.locate true create workingDir path = .ok place) :
    ∀ target, t.entry? place ≠ some (.link target) := by
  unfold locate at hlocate
  split at hlocate
  · cases hlocate
  · split at hlocate
    · cases hlocate
    · refine not_link_of_follow h ?_ hlocate
      split
      · rfl
      · exact hdir

/-! ## Entries that are there, and new ones -/

/-- A place is led to where something is in it. -/
def reached (t : Tree) (place : Place) : Except Refusal Place :=
  if (t.entry? place).isSome then .ok place else .error .noEntry

theorem reached_of_entry {e : Entry} (h : t.entry? place = some e) :
    t.reached place = .ok place := by
  rw [reached, h]
  rfl

/-- Names that lead to a place in which something may be made lead there without that if something
is in it, and to nothing else. -/
theorem walk_reached (h : t.Sound) {again again' : Place → List String → Except Refusal Place}
    (hagain : ∀ {start names}, t.entry? start = some .directory →
      again start names = .ok place → again' start names = t.reached place)
    (hstart : t.entry? start = some .directory) {names : List String}
    (hwalk : t.walk true true again start names = .ok place) :
    t.walk true false again' start names = t.reached place := by
  fun_induction walk t true true again start names with
  | case1 =>
      cases hwalk
      rw [reached_of_entry hstart]
      rfl
  | case2 start rest ih =>
      rw [walk, if_pos rfl]
      exact ih hstart hwalk
  | case3 start rest hdot ih =>
      rw [walk, if_neg hdot, if_pos rfl]
      exact ih (h.directory_dropLast hstart) hwalk
  | case5 start name rest hdot hdots hlong next hnone hcreate =>
      obtain rfl : start ++ [name] = place := Except.ok.inj hwalk
      rw [walk, if_neg hdot, if_neg hdots, if_neg hlong, reached]
      have hnone' : t.entry? (start ++ [name]) = none := hnone
      simp [hnone']
  | case7 start name rest hdot hdots hlong next hnext ih =>
      have hnext' : t.entry? (start ++ [name]) = some .directory := hnext
      rw [walk, if_neg hdot, if_neg hdots, if_neg hlong]
      simp only [hnext']
      exact ih hnext hwalk
  | case8 start name hdot hdots hlong next bytes hnext =>
      obtain rfl : start ++ [name] = place := Except.ok.inj hwalk
      have hnext' : t.entry? (start ++ [name]) = some (.file bytes) := hnext
      rw [walk, if_neg hdot, if_neg hdots, if_neg hlong, reached_of_entry hnext']
      simp only [hnext', if_true]
  | case10 start name rest hdot hdots hlong next target hnext hthrough =>
      exact absurd hthrough.2 (by decide)
  | case11 start name rest hdot hdots hlong next target hnext hthrough absolute names hsteps =>
      have hnext' : t.entry? (start ++ [name]) = some (.link target) := hnext
      rw [walk, if_neg hdot, if_neg hdots, if_neg hlong]
      simp only [hnext', if_neg hthrough, hsteps]
      refine hagain ?_ hwalk
      split
      · rfl
      · exact hstart
  | case4 | case6 | case9 => cases hwalk

theorem follow_reached (h : t.Sound) {links : Nat} (hstart : t.entry? start = some .directory)
    {names : List String} (hfollow : t.follow true true links start names = .ok place) :
    t.follow true false links start names = t.reached place := by
  induction links generalizing start names with
  | zero => exact walk_reached h (fun _ hagain => by cases hagain) hstart hfollow
  | succ links ih => exact walk_reached h (fun hdir hagain => ih hdir hagain) hstart hfollow

theorem locate_reached (h : t.Sound) {workingDir : Place} {path : String}
    (hdir : t.entry? workingDir = some .directory)
    (hlocate : t.locate true true workingDir path = .ok place) :
    t.locate true false workingDir path = t.reached place := by
  unfold locate at hlocate ⊢
  split
  · next hempty =>
      rw [if_pos hempty] at hlocate
      cases hlocate
  · next hempty =>
      rw [if_neg hempty] at hlocate
      split
      · next hlong =>
          rw [if_pos hlong] at hlocate
          cases hlocate
      · next hlong =>
          rw [if_neg hlong] at hlocate
          refine follow_reached h ?_ hlocate
          split
          · rfl
          · exact hdir

/-- A path that can be written to leads to something exactly if something is in that place. -/
theorem hasEntry_of_locate (h : t.Sound) {workingDir : Place} {path : String}
    (hdir : t.entry? workingDir = some .directory)
    (hlocate : t.locate true true workingDir path = .ok place) :
    t.hasEntry workingDir path = .ok (t.entry? place).isSome := by
  have hreached := locate_reached h hdir hlocate
  unfold hasEntry look find
  rw [hreached, reached]
  cases hentry : t.entry? place with
  | none => rfl
  | some e =>
      simp only [Option.isSome_some, if_true, hentry]

/-! ## Writing and then reading -/

/-- A path can be written to if it leads to a place, which may be a new one, and that is no
directory. -/
def IsWritable (t : Tree) (workingDir : Place) (path : String) : Prop :=
  ∃ place, t.locate true true workingDir path = .ok place ∧ t.entry? place ≠ some .directory

/-- What can be written to is written to, and else the path is refused. -/
theorem write_eq_ok_iff {t' : Tree} {workingDir : Place} {path : String} :
    t.write workingDir path bytes = .ok t' ↔ ∃ place,
      t.locate true true workingDir path = .ok place ∧ t.entry? place ≠ some .directory ∧
        t' = t.put place (.file bytes) := by
  unfold write
  split
  · next r hlocate => simp [hlocate]
  · next place hlocate =>
      split
      · next hdirectory => simp [hlocate, hdirectory]
      · next hdirectory =>
          constructor
          · intro heq
            exact ⟨place, hlocate, hdirectory, (Except.ok.inj heq).symm⟩
          · rintro ⟨q, hq, -, rfl⟩
            obtain rfl := Except.ok.inj (hlocate.symm.trans hq)
            rfl

/-- What was written to a path is what is read from it. -/
theorem read_of_write (h : t.Sound) {workingDir : Place}
    (hdir : t.entry? workingDir = some .directory) {path : String} {t' : Tree}
    (hwrite : t.write workingDir path bytes = .ok t') : t'.read workingDir path = .ok bytes := by
  obtain ⟨place, hlocate, hdirectory, rfl⟩ := write_eq_ok_iff.mp hwrite
  have hlink := not_link_of_locate h hdir hlocate
  have hagain := locate_put hdirectory hlink hlocate bytes
  have hentry := entry?_put t (ne_nil_of_not_directory hdirectory) (.file bytes) place
  rw [if_pos rfl] at hentry
  unfold read find
  rw [hagain]
  dsimp only
  rw [hentry]

end ImportAudit.Files.Tree
