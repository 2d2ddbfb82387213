/-
# ImportAudit.Proofs.Session.Narrowing — options that leave less to be found.

What is found in a file are the packages that the options object to by the manifest of the file
(`RuleOptions.objectsTo`).  If options object to some of the packages that others object to
(`RuleOptions.Narrows`), a check by them comes to the same result with some of the findings left out:
this holds of one file (`Run.singly_narrows`) and so of all (`Run.gathered_narrows`).  Ignoring a
package more narrows the options, and so does asking for optional packages; in what order packages
are ignored, and how often, changes nothing at all (`Run.check_sameRule`).
-/
import ImportAudit.Proofs.Session.Single
import ImportAudit.Proofs.Manifest.Resolution

namespace ImportAudit

/-! ## Packages that are objected to -/

namespace RuleOptions

variable {s : Session} {o o' : RuleOptions}

/-- By a manifest, a package is neither allowed nor ignored. -/
def objectsTo (o : RuleOptions) (m : Manifest) (package : String) : Bool :=
  package ∉ m.allowed o ∧ package ∉ o.ignore

/-- By the manifest of any file, the second options object to those packages that the first object
to and that are kept in the file. -/
def Narrows (s : Session) (keep : String → String → Bool) (o o' : RuleOptions) : Prop :=
  ∀ file m problem, Manifest.ofFile s file = .ok (m, problem) →
    ∀ package, o'.objectsTo m package = (o.objectsTo m package && keep file package)

/-- The options differ in nothing, unless it is the order in which packages are ignored and how
often. -/
structure SameRule (o o' : RuleOptions) : Prop where
  dev : o'.dev = o.dev
  optional : o'.optional = o.optional
  ignore : ∀ package, package ∈ o'.ignore ↔ package ∈ o.ignore

theorem SameRule.selected (h : SameRule o o') : Section.selected o' = Section.selected o := by
  unfold Section.selected
  rw [h.dev, h.optional]

theorem SameRule.allowed (h : SameRule o o') (m : Manifest) : m.allowed o' = m.allowed o := by
  unfold Manifest.allowed
  rw [h.selected]

/-- A package that is ignored besides is not kept, and all others are. -/
theorem narrows_of_ignore {ignored : String} (hdev : o'.dev = o.dev)
    (hoptional : o'.optional = o.optional)
    (h : ∀ package, package ∈ o'.ignore ↔ package = ignored ∨ package ∈ o.ignore) :
    Narrows s (fun _ package => package ≠ ignored) o o' := by
  intro file m problem _ package
  have hallowed : m.allowed o' = m.allowed o := by
    unfold Manifest.allowed Section.selected
    rw [hdev, hoptional]
  unfold objectsTo
  dsimp only
  rw [hallowed, ← Bool.decide_and]
  apply decide_eq_decide.mpr
  rw [h, not_or]
  constructor
  · rintro ⟨hallowed, hother, hignore⟩
    exact ⟨⟨hallowed, hignore⟩, hother⟩
  · rintro ⟨⟨hallowed, hignore⟩, hother⟩
    exact ⟨hallowed, hother, hignore⟩

end RuleOptions

/-- The packages that the manifest of a file has for optional ones; none if there is no manifest. -/
def Manifest.optionalOf (s : Session) (file : String) : List String :=
  match ofFile s file with
  | .ok (m, _) => m.packagesIn .optional
  | .error _ => []

theorem Manifest.mem_allowed_optional {m : Manifest} {o : RuleOptions} {package : String} :
    package ∈ m.allowed { o with optional := true } ↔
      package ∈ m.allowed o ∨ package ∈ m.packagesIn .optional := by
  simp only [allowed, Text.mem_sortedSet, List.mem_flatMap, Manifest.exists_selected_iff]
  constructor
  · rintro (h | h | ⟨-, h⟩)
    · exact .inl (.inl h)
    · exact .inl (.inr (.inl h))
    · exact .inr h
  · rintro ((h | h | ⟨-, h⟩) | h)
    · exact .inl h
    · exact .inr (.inl h)
    · exact .inr (.inr ⟨trivial, h⟩)
    · exact .inr (.inr ⟨trivial, h⟩)

/-- If optional packages are asked for, those are not kept that the manifest of the file has. -/
theorem RuleOptions.narrows_of_optional (s : Session) (o : RuleOptions) :
    Narrows s (fun file package => package ∉ Manifest.optionalOf s file) o
      { o with optional := true } := by
  intro file m problem hmanifest package
  have hoptional : Manifest.optionalOf s file = m.packagesIn .optional := by
    unfold Manifest.optionalOf
    rw [hmanifest]
  unfold objectsTo
  dsimp only
  rw [hoptional, ← Bool.decide_and]
  apply decide_eq_decide.mpr
  rw [Manifest.mem_allowed_optional, not_or]
  constructor
  · rintro ⟨⟨hallowed, hother⟩, hignore⟩
    exact ⟨⟨hallowed, hignore⟩, hother⟩
  · rintro ⟨⟨hallowed, hignore⟩, hother⟩
    exact ⟨⟨hallowed, hother⟩, hignore⟩

/-! ## Files -/

namespace SourceFile

variable {file : SourceFile} {o o' : RuleOptions} {m : Manifest}

theorem package_findingAt {r : Reference} {package : String} (hr : r ∈ file.allReferences)
    (h : Target.ofSpecifier r.text = .external package) :
    (file.findingAt r).package = package := by
  have htext : r.text = file.between (r.start + 1) (r.stop - 1) := file.text_eq_between hr
  rw [htext] at h
  exact packageName_of_ofSpecifier h

/-- The references of a file that are undeclared are those whose packages are objected to. -/
theorem isUndeclared_narrows {keep : String → Bool}
    (h : ∀ package, o'.objectsTo m package = (o.objectsTo m package && keep package))
    {r : Reference} (hr : r ∈ file.allReferences) :
    r.isUndeclared o' (m.allowed o') =
      (keep (file.findingAt r).package && r.isUndeclared o (m.allowed o)) := by
  unfold Reference.isUndeclared
  cases htarget : Target.ofSpecifier r.text with
  | relative => exact (Bool.and_false _).symm
  | builtin package => exact (Bool.and_false _).symm
  | external package =>
      rw [package_findingAt hr htarget, Bool.and_comm]
      exact h package

theorem undeclared_narrows (file : SourceFile) {keep : String → Bool}
    (h : ∀ package, o'.objectsTo m package = (o.objectsTo m package && keep package)) :
    (file.undeclared o' (m.allowed o')).map file.findingAt =
      ((file.undeclared o (m.allowed o)).map file.findingAt).filter fun f => keep f.package := by
  unfold undeclared
  rw [List.filter_map, List.filter_filter]
  exact congrArg _ (List.filter_congr fun r hr => isUndeclared_narrows h hr)

end SourceFile

/-- The result with those findings that are to be kept. -/
def CheckResult.keeping (r : CheckResult) (keep : Finding → Bool) : CheckResult :=
  { r with findings := r.findings.filter keep }

namespace Run

variable {s : Session} {o o' : RuleOptions} {keep : String → String → Bool}

/-- The check of one file by narrower options comes to the findings that are kept, and reports the
same problems. -/
theorem singly_narrows (h : o.Narrows s keep o') (p : Path) :
    singly o' s p =
      ((singly o s p).1.map (List.filter fun f => keep f.fileName f.package), (singly o s p).2) := by
  unfold singly
  cases SourceFile.load s.files s.workingDir p with
  | error f => rfl
  | ok file =>
      dsimp only
      unfold singlyOf
      split
      · cases hmanifest : Manifest.ofFile s file.fileName with
        | error f => rfl
        | ok loaded =>
            obtain ⟨m, problem⟩ := loaded
            have hfile := h file.fileName m problem hmanifest
            have hfindings := file.undeclared_narrows hfile
            dsimp only
            rw [hfindings, List.filter_map, Except.map, List.filter_map]
            rfl
      · rfl

/-- A check of files by narrower options comes to the same result, but for the findings that are not
kept. -/
theorem gathered_narrows (h : o.Narrows s keep o') (paths : List Path) :
    gathered { options := o' } s paths =
      (gathered { options := o } s paths).keeping fun f => keep f.fileName f.package := by
  have halone : ∀ p, alone { options := o' } s p =
      (alone { options := o } s p).map (List.filter fun f => keep f.fileName f.package) := by
    intro p
    rw [alone_eq_singly, alone_eq_singly, singly_narrows h]
  have hproblems : problemsAlone { options := o' } s = problemsAlone { options := o } s := by
    funext p
    rw [problemsAlone_eq_singly, problemsAlone_eq_singly, singly_narrows h]
  -- the count and the errors are a matter of which files can be checked, and these are the same
  have hcount : (fun p => (alone { options := o' } s p).isOk) =
      fun p => (alone { options := o } s p).isOk := by
    funext p
    rw [halone]
    cases alone { options := o } s p <;> rfl
  have hfailure : failureAlone { options := o' } s = failureAlone { options := o } s := by
    funext p
    unfold failureAlone
    rw [halone]
    cases alone { options := o } s p <;> rfl
  have hfound : foundAlone { options := o' } s = fun p =>
      (foundAlone { options := o } s p).filter fun f => keep f.fileName f.package := by
    funext p
    unfold foundAlone
    rw [halone]
    cases alone { options := o } s p <;> rfl
  unfold gathered CheckResult.keeping
  rw [hcount, hfound, hfailure, hproblems, List.filter_flatMap]

theorem settles_narrows (h : o.Narrows s keep o') (p : Path) :
    settles { options := o' } s p = settles { options := o } s p := by
  unfold settles
  rw [alone_eq_singly, alone_eq_singly, singly_narrows h]
  cases (singly o s p).1 <;> rfl

/-! ## The same rule -/

theorem verdict_sameRule (h : o.SameRule o') (file : SourceFile) (names : List String) :
    (Analysis.ofFile file o').verdict names = (Analysis.ofFile file o).verdict names := by
  have hpasses : (Analysis.ofFile file o').passes names = (Analysis.ofFile file o).passes names := by
    funext package
    unfold Analysis.passes RuleOptions.ignores
    rw [List.contains_eq_mem, List.contains_eq_mem, List.contains_eq_mem]
    exact congrArg _ (decide_eq_decide.mpr (h.ignore package))
  funext r
  unfold Analysis.verdict
  rw [hpasses]

theorem allowedPackages_sameRule (h : o.SameRule o') (file : String) :
    allowedPackages file o' = allowedPackages file o := by
  have hconsult : ∀ t workingDir, Manifest.consult t workingDir file o' =
      Manifest.consult t workingDir file o := by
    intro t workingDir
    unfold Manifest.consult
    simp only [h.allowed]
  unfold allowedPackages
  simp only [hconsult, h.selected]

theorem findings_sameRule (h : o.SameRule o') (file : SourceFile) :
    file.findings o' allowedPackages noteFinding = file.findings o allowedPackages noteFinding := by
  unfold SourceFile.findings
  rw [StateT.run'_eq, StateT.run'_eq, Analysis.collect_run_unsettled allowedPackages noteFinding rfl,
    Analysis.collect_run_unsettled allowedPackages noteFinding rfl]
  split
  · dsimp only
    simp only [allowedPackages_sameRule h, verdict_sameRule h, map_bind, map_pure]
  · rfl

/-- By the same rule, checks of files are the same runs. -/
theorem check_sameRule (h : o.SameRule o') (paths : List Path) : check paths o' = check paths o := by
  have happly : applyTo { options := o' } = applyTo { options := o } := by
    funext p
    unfold applyTo checkWith
    simp only [findings_sameRule h]
  have heach : ∀ r, checkEach { options := o' } r paths = checkEach { options := o } r paths := by
    induction paths with
    | nil => exact fun _ => rfl
    | cons p ps ih =>
        intro r
        unfold checkEach outcome
        simp only [happly, ih]
  unfold check checkAll
  simp only [heach]

end Run

end ImportAudit
