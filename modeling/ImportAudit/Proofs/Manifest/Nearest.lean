/-
# ImportAudit.Proofs.Manifest.Nearest — which manifest a file goes by.

The manifest is looked for in the directory of the file and in those above it (`candidates`), which
are read off the absolute path of the file (`candidates_eq`).  What is found is the first that there
is: those that are closer to the file are not there, and those that are farther away are not looked
at (`nearestTo_eq_some_iff`).
-/
import ImportAudit.Manifest.Nearest
import ImportAudit.Proofs.Files.Absolute
import ImportAudit.Session.Basic

namespace ImportAudit

namespace Files.Tree

variable {t : Tree} {workingDir : Place}

theorem firstPresent_cons_eq_some_iff {p path : Path} {ps : List Path} :
    t.firstPresent workingDir (p :: ps) = .ok (some path) ↔
      p = path ∧ t.hasEntry workingDir p.toString = .ok true ∨
        t.hasEntry workingDir p.toString = .ok false ∧
          t.firstPresent workingDir ps = .ok (some path) := by
  rw [firstPresent]
  cases t.hasEntry workingDir p.toString with
  | error f => simp
  | ok found => cases found <;> simp

/-- The first path that leads to something is the one before which none does. -/
theorem firstPresent_eq_some_iff {paths : List Path} {path : Path} :
    t.firstPresent workingDir paths = .ok (some path) ↔
      ∃ closer farther, paths = closer ++ path :: farther ∧
        (∀ p ∈ closer, t.hasEntry workingDir p.toString = .ok false) ∧
        t.hasEntry workingDir path.toString = .ok true := by
  induction paths with
  | nil => simp [firstPresent]
  | cons p ps ih =>
      rw [firstPresent_cons_eq_some_iff, ih]
      constructor
      · rintro (⟨rfl, hpath⟩ | ⟨hp, closer, farther, rfl, hcloser, hpath⟩)
        · exact ⟨[], ps, rfl, fun _ hq => absurd hq List.not_mem_nil, hpath⟩
        · exact ⟨p :: closer, farther, rfl, List.forall_mem_cons.mpr ⟨hp, hcloser⟩, hpath⟩
      · rintro ⟨closer, farther, hpaths, hcloser, hpath⟩
        -- the path is the first one, or the first one is closer
        cases closer with
        | nil =>
            cases hpaths
            exact .inl ⟨rfl, hpath⟩
        | cons q qs =>
            cases hpaths
            obtain ⟨hp, hqs⟩ := List.forall_mem_cons.mp hcloser
            exact .inr ⟨hp, qs, farther, rfl, hqs, hpath⟩

/-- No path is present if none leads to anything. -/
theorem firstPresent_eq_none_iff {paths : List Path} :
    t.firstPresent workingDir paths = .ok none ↔
      ∀ p ∈ paths, t.hasEntry workingDir p.toString = .ok false := by
  induction paths with
  | nil => simp [firstPresent]
  | cons p ps ih =>
      rw [List.forall_mem_cons, ← ih, firstPresent]
      cases t.hasEntry workingDir p.toString with
      | error f => simp
      | ok found => cases found <;> simp

/-- A path that can be read leads to something. -/
theorem hasEntry_of_read {path : String} {bytes : List UInt8}
    (h : t.read workingDir path = .ok bytes) : t.hasEntry workingDir path = .ok true := by
  unfold read at h
  split at h
  · next hfind =>
      rw [hasEntry, look, hfind]
      rfl
  · cases h
  · cases h
  · cases h

end Files.Tree

namespace Manifest

open Files

/-- Where the manifest of a file may be, the closest place first. -/
def candidates (s : Session) (file : String) : List Path :=
  (Tree.absolute s.workingDir (Tree.absolute s.workingDir file).parent.toString).ancestors.map
    (·.child fileName)

/-- The manifest that a file goes by, if there is one. -/
def nearestTo (s : Session) (file : String) : Except Files.Fault (Option Path) :=
  nearest s.files s.workingDir (Tree.absolute s.workingDir file).parent.toString

/-- The candidates lie in the directory of the file and in those above it, which are those of its
absolute path. -/
theorem candidates_eq {s : Session} (h : ∀ name ∈ s.workingDir, Path.IsName name) (file : String) :
    candidates s file =
      (Tree.absolute s.workingDir file).parent.ancestors.map (·.child fileName) := by
  have hnormal := Tree.isNormal_absolute h file
  have hparent : (Tree.absolute s.workingDir file).parent.IsNormal :=
    ⟨hnormal.root, fun part hpart => hnormal.names part (List.dropLast_subset _ hpart)⟩
  rw [candidates, Tree.absolute_toString hparent]

/-- The manifest that a file goes by is the closest that there is. -/
theorem nearestTo_eq_some_iff {s : Session} {file : String} {path : Path} :
    nearestTo s file = .ok (some path) ↔
      ∃ closer farther, candidates s file = closer ++ path :: farther ∧
        (∀ p ∈ closer, s.files.hasEntry s.workingDir p.toString = .ok false) ∧
        s.files.hasEntry s.workingDir path.toString = .ok true :=
  Tree.firstPresent_eq_some_iff

end Manifest

end ImportAudit
