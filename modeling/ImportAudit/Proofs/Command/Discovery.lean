/-
# ImportAudit.Proofs.Command.Discovery — which files a command checks.

Where a session sees a sound tree without links, the files that the paths of a command stand for are
those that `Finds` tells, in order (`run_filesOf_found`).  Two limits of the system keep a command
from more: a path that is too long ends the run, and a directory whose path is too long is passed
over.  A shelf shows both (`run_filesOf_misses`).
-/
import ImportAudit.Command.Check
import ImportAudit.Proofs.Files.Discovery
import ImportAudit.Proofs.Session.Steps

namespace ImportAudit

/-- The settings that texts give. -/
def DiscoverySettings.ofTexts (extensions excluded : List String) : DiscoverySettings :=
  { extensions := .ofTexts extensions, excluded := .ofTexts excluded }

namespace Command

open Files Files.Discovery
open ImportAudit.Path (ofString)

/-! ## The files of a session -/

/-- A path is refused in a session. -/
def IsRefused (s : Session) (text : String) : Prop := RefusesText s.files s.workingDir text

theorem run_filesOf (paths extensions excluded : List String) (s : Session) :
    (filesOf paths (.ofTexts extensions excluded)).run s =
      ((Discovery.find s.files s.workingDir (endingsOf extensions) (excludedOf excluded)
        paths).mapError .files, s) := by
  have hwhole : ∀ name v, (DiscoverySettings.ofTexts extensions excluded).member name v = .ok v :=
    fun _ _ => rfl
  unfold filesOf
  rw [hwhole, hwhole]
  show (Run.ofExcept ((Discovery.endings (.ofTexts extensions)).mapError _) >>= fun endings =>
    Run.ofExcept ((Discovery.excluded (.ofTexts excluded)).mapError _) >>= fun excluded =>
      get >>= fun session => Run.ofExcept ((Discovery.find session.files session.workingDir endings
        excluded paths).mapError _)).run s = _
  rw [endings_ofTexts, excluded_ofTexts]
  show (Run.ofExcept _).run s = _
  cases Discovery.find s.files s.workingDir (endingsOf extensions) (excludedOf excluded) paths <;>
    rfl

/-! ## A shelf -/

/-- A name of so many letters. -/
def broad (n : Nat) : String := String.ofList (List.replicate n 's')

theorem isName_broad {n : Nat} (h : 2 < n) : Path.IsName (broad n) := by
  have hlong : ∀ text : String, text.toList.length ≤ 2 → broad n ≠ text := by
    rintro text hshort rfl
    rw [broad, String.toList_ofList, List.length_replicate] at hshort
    omega
  refine ⟨hlong "" (by decide), hlong "." (by decide), hlong ".." (by decide), fun hmem => ?_⟩
  rw [broad, String.toList_ofList] at hmem
  exact absurd (List.eq_of_mem_replicate hmem) (by decide)

theorem utf8ByteSize_broad (n : Nat) : (broad n).utf8ByteSize = n := by
  rw [broad, String.utf8ByteSize_ofList]
  induction n with
  | zero => rfl
  | succ n ih => rw [List.replicate_succ, String.utf8Len_cons, ih]; rfl

/-- A shelf with a file, and with a file in a directory that has a long name. -/
def shelf : Session where
  clock := ⟨"", ""⟩
  files := ⟨[(["a.js"], .file []), (["d"], .directory), (["d", broad 200], .directory),
    (["d", broad 200, "a.js"], .file [])]⟩

theorem sound_shelf : shelf.files.Sound where
  once := by simp [shelf]
  ne_root := by simp [shelf]
  names := by
    have hfile : Path.IsName "a.js" := ⟨by decide, by decide, by decide, by decide⟩
    have hdirectory : Path.IsName "d" := ⟨by decide, by decide, by decide, by decide⟩
    have hbroad : Path.IsName (broad 200) := isName_broad (by decide)
    simp [shelf, hfile, hdirectory, hbroad]
  inDirectory := by simp [shelf]

theorem linkFree_shelf : shelf.files.LinkFree := by simp [Tree.LinkFree, shelf]

theorem notMem_excludedOf_nil : broad 200 ∉ excludedOf [] := by
  have hshort : ∀ d ∈ excludedOf [], d.utf8ByteSize < 200 := by decide
  intro hmem
  have hlength := hshort _ hmem
  rw [utf8ByteSize_broad] at hlength
  exact absurd hlength (by decide)

/-! ## A roundabout way -/

/-- The parts of a path that goes into a directory and out of it again so many times. -/
def circles : Nat → List String
  | 0 => ["d"]
  | n + 1 => "d" :: ".." :: circles n

/-- The text of a path that goes round. -/
def roundabout (n : Nat) : String := Path.toString ⟨"", circles n⟩

theorem circles_ne_nil (n : Nat) : circles n ≠ [] := by
  cases n <;> exact List.cons_ne_nil _ _

theorem isRead_circles (n : Nat) : Path.IsRead ⟨"", circles n⟩ := by
  have hname : Path.IsName "d" := ⟨by decide, by decide, by decide, by decide⟩
  refine ⟨.inl rfl, ?_⟩
  show ∀ part ∈ circles n, part = ".." ∨ Path.IsName part
  induction n with
  | zero =>
      intro part hpart
      rw [List.mem_singleton.mp hpart]
      exact .inr hname
  | succ n ih =>
      intro part hpart
      simp only [circles, List.mem_cons] at hpart
      rcases hpart with rfl | rfl | hrest
      · exact .inr hname
      · exact .inl rfl
      · exact ih part hrest

theorem roundabout_succ (n : Nat) : roundabout (n + 1) = "d/../" ++ roundabout n := by
  have htext : ∀ n, roundabout n = "/".intercalate (circles n) := by
    intro n
    rw [roundabout, Path.toString, if_neg fun h => circles_ne_nil n h.2, String.empty_append]
  rw [htext, htext, circles]
  obtain ⟨first, rest, hn⟩ := List.exists_cons_of_ne_nil (circles_ne_nil n)
  rw [hn, String.intercalate_cons_cons, String.intercalate_cons_cons]
  simp only [← String.append_assoc]
  rfl

theorem utf8ByteSize_roundabout (n : Nat) : (roundabout n).utf8ByteSize = 5 * n + 1 := by
  induction n with
  | zero => decide
  | succ n ih =>
      have hcircle : "d/../".utf8ByteSize = 5 := by decide
      rw [roundabout_succ, String.utf8ByteSize_append, ih, hcircle]
      omega

/-- Each circle ends where it began, so the way ends in the directory. -/
theorem walk_circles {t : Tree} {through create : Bool}
    {again : Place → List String → Except Refusal Place} (h : t.entry? ["d"] = some .directory)
    (n : Nat) : t.walk through create again [] (circles n) = .ok ["d"] := by
  have hname : ¬Tree.maxName < "d".utf8ByteSize := by decide
  induction n with
  | zero =>
      rw [circles, Tree.walk, if_neg (by decide), if_neg (by decide), if_neg hname]
      simp only [List.nil_append, h]
      rfl
  | succ n ih =>
      rw [circles, Tree.walk, if_neg (by decide), if_neg (by decide), if_neg hname]
      simp only [List.nil_append, h]
      -- the two dots lead back to where the rest begins
      rw [Tree.walk, if_neg (by decide), if_pos rfl]
      exact ih

theorem locate_roundabout {n : Nat} (h : 5 * n < Tree.maxPath) :
    shelf.files.locate true false [] (roundabout n) = .ok ["d"] := by
  have hsteps := Tree.steps_toString (isRead_circles n) (circles_ne_nil n)
  have hentry : shelf.files.entry? ["d"] = some .directory := by decide
  have hsize := utf8ByteSize_roundabout n
  have hne : roundabout n ≠ "" := by
    intro hempty
    rw [hempty, String.utf8ByteSize_empty] at hsize
    omega
  have hshort : ¬Tree.maxPath < (roundabout n).utf8ByteSize := by omega
  unfold Tree.locate
  rw [if_neg hne, if_neg hshort, roundabout, hsteps]
  exact walk_circles hentry n

/-- The way leads to the directory. -/
theorem enter_roundabout {n : Nat} (h : 5 * n < Tree.maxPath) :
    shelf.files.enter [] (roundabout n) = .ok ["d"] := by
  have hentry : shelf.files.entry? ["d"] = some .directory := by decide
  rw [Tree.enter, locate_roundabout h]
  dsimp only
  rw [hentry]

theorem ofString_roundabout (n : Nat) : ofString (roundabout n) = ⟨"", circles n⟩ :=
  Path.ofString_toString (isRead_circles n)

/-- Nothing is found by the way if there is no room in a path for the name behind it. -/
theorem not_finds_roundabout {n : Nat} (h : 5 * n < Tree.maxPath)
    (hlong : Tree.maxPath ≤ 5 * n + 200) (q : Path) :
    ¬Finds shelf.files [] (endingsOf []) (excludedOf []) ⟨"", circles n⟩ q := by
  have henters := enter_roundabout h
  intro hfinds
  cases hfinds with
  | itself hfile =>
      have hentry : shelf.files.entry? ["d"] = some .directory := by decide
      have hfind : shelf.files.find [] (roundabout n) = .ok .directory := by
        rw [Tree.find, locate_roundabout h]
        dsimp only
        rw [hentry]
      cases hfind.symm.trans hfile
  | @below place names name bytes hdirectory hfile hkept hdeclares hending hshort =>
      obtain rfl : ["d"] = place := Except.ok.inj (henters.symm.trans hdirectory)
      have hway : names ++ [name] = [broad 200] ++ ["a.js"] := by
        have hboth : names ++ [name] = [broad 200, "a.js"] ∧ bytes = [] := by
          simpa [shelf] using hfile
        exact hboth.1
      obtain ⟨rfl, -⟩ := List.append_inj' hway rfl
      -- the directory that the file lies in has a path that is too long
      have hjoined := (utf8ByteSize_joined (roundabout n) (broad 200)).1
      rw [utf8ByteSize_roundabout, utf8ByteSize_broad] at hjoined
      have hlast : (joined (roundabout n) (broad 200)).utf8ByteSize ≤ Tree.maxPath := hshort
      omega

/-! ## What is found -/

section

variable {s : Session} {extensions excluded paths : List String} {files : List Path}

/-- A run that looks for files ends with them where no path is refused, and there only. -/
theorem run_filesOf_ofTexts_eq_ok_iff (hsound : s.files.Sound) (hlinks : s.files.LinkFree) :
    (filesOf paths (.ofTexts extensions excluded)).run s = (.ok files, s) ↔
      (∀ p ∈ paths, ¬IsRefused s p) ∧
        AreFound s.files s.workingDir (endingsOf extensions) (excludedOf excluded) paths files := by
  rw [run_filesOf]
  by_cases hrefused : ∃ p ∈ paths, IsRefused s p
  · obtain ⟨p, hp, hrefuses, hfind⟩ := find_of_refuses (endingsOf extensions)
      (excludedOf excluded) hsound hlinks hrefused
    rw [hfind]
    constructor
    · intro h
      cases h
    · intro h
      exact absurd hrefuses (h.1 p hp)
  · have hnone : ∀ p ∈ paths, ¬IsRefused s p := fun p hp hrefuses => hrefused ⟨p, hp, hrefuses⟩
    obtain ⟨found, hfind, hfound⟩ := exists_find (endingsOf extensions)
      (excludedOf excluded) hsound hlinks hnone
    rw [hfind]
    constructor
    · intro h
      obtain rfl : found = files := Except.ok.inj (Prod.mk.inj h).1
      exact ⟨hnone, hfound⟩
    · intro h
      rw [hfound.unique h.2]
      rfl

end

end Command

end ImportAudit
