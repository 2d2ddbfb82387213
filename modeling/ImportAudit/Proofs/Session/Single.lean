/-
# ImportAudit.Proofs.Session.Single — what the check of one file comes to.

A file goes by one manifest, or by none (`Manifest.ofFile`), and that is a matter of the files alone,
whatever the options are.  `singly` says what the check of one file comes to: the fault that keeps it
from being read, or its undeclared references by what that manifest allows, with the problem of the
manifest, which is looked at if there is a reference to a package that is not built in.  Checks of
single files come to this (`applyTo_run_singly`), and a check of many files that ends with a result
has come to this for each of them (`check_eq_ok_iff`).
-/
import ImportAudit.Proofs.Analysis.Findings
import ImportAudit.Proofs.Manifest.Reading
import ImportAudit.Proofs.Session.Batch

namespace ImportAudit

/-! ## The manifest of a file -/

namespace Manifest

/-- The manifest that a file goes by, an empty one if there is none, and the problem with it. -/
def ofFile (s : Session) (file : String) : Except Fault (Manifest × Option Problem) :=
  match nearestTo s file with
  | .error f => .error (.files f)
  | .ok none => .ok ({}, none)
  | .ok (some path) => load s.files s.workingDir path

variable {s : Session} {file : String}

theorem ofFile_congr {t : Session} (h : s.SameFiles t) (file : String) :
    ofFile s file = ofFile t file := by
  unfold ofFile nearestTo
  rw [h.files, h.workingDir]

theorem ofFile_of_nearest {path : Path} (h : nearestTo s file = .ok (some path)) :
    ofFile s file = load s.files s.workingDir path := by
  unfold ofFile
  rw [h]

/-- Options say what is allowed by the manifest of a file, and have no other influence. -/
theorem consult_of_ofFile {m : Manifest} {problem : Option Problem}
    (h : ofFile s file = .ok (m, problem)) (o : RuleOptions) :
    ∃ path, consult s.files s.workingDir file o = .ok ⟨path, problem, m.allowed o⟩ := by
  unfold ofFile at h
  split at h
  · cases h
  · next hnear =>
      obtain ⟨rfl, rfl⟩ := Prod.mk.inj (Except.ok.inj h)
      refine ⟨none, ?_⟩
      unfold nearestTo at hnear
      unfold consult
      rw [hnear, Run.allowed_empty]
  · next path hnear =>
      refine ⟨some path, ?_⟩
      rw [Run.consult_of_nearest hnear, h]
      rfl

theorem consult_of_ofFile_error {f : Fault} (h : ofFile s file = .error f) (o : RuleOptions) :
    consult s.files s.workingDir file o = .error f := by
  unfold ofFile at h
  split at h
  · next fault hnear =>
      cases h
      unfold nearestTo at hnear
      unfold consult
      rw [hnear]
  · cases h
  · next path hnear =>
      rw [Run.consult_of_nearest hnear, h]
      rfl

end Manifest

namespace Run

/-! ## One file -/

/-- What the check of a file that was read comes to, and the problems that it reports. -/
def singlyOf (o : RuleOptions) (s : Session) (file : SourceFile) :
    Except Fault (List Finding) × List Problem :=
  if file.allReferences.any Reference.isExternal then
    match Manifest.ofFile s file.fileName with
    | .error f => (.error f, [])
    | .ok (m, problem) =>
      (.ok ((file.undeclared o (m.allowed o)).map file.findingAt), problem.toList)
  else (.ok [], [])

/-- What the check of the file of a path comes to, and the problems that it reports. -/
def singly (o : RuleOptions) (s : Session) (p : Path) : Except Fault (List Finding) × List Problem :=
  match SourceFile.load s.files s.workingDir p with
  | .error f => (.error f, [])
  | .ok file => singlyOf o s file

theorem singlyOf_congr (o : RuleOptions) {s t : Session} (h : s.SameFiles t) (file : SourceFile) :
    singlyOf o s file = singlyOf o t file := by
  unfold singlyOf
  rw [Manifest.ofFile_congr h]

theorem singly_congr (o : RuleOptions) {s t : Session} (h : s.SameFiles t) (p : Path) :
    singly o s p = singly o t p := by
  unfold singly
  rw [h.files, h.workingDir]
  simp only [singlyOf_congr o h]

theorem noteFindings_reported (findings : List Finding) (s : Session) :
    ∃ t, (forM findings noteFinding : Run Unit).run s = (.ok (), t) ∧ s.Reported t [] := by
  induction findings generalizing s with
  | nil => exact ⟨s, rfl, .refl s⟩
  | cons f rest ih =>
      have hf : ∃ t, (noteFinding f).run s = (.ok (), t) ∧ s.Reported t [] :=
        ⟨_, rfl, ⟨⟨rfl, rfl⟩, rfl⟩⟩
      obtain ⟨t, ht, hst⟩ := hf
      obtain ⟨u, hu, htu⟩ := ih t
      refine ⟨u, ?_, hst.trans htu⟩
      rw [List.forM_cons, run_bind_of_ok ht]
      exact hu

/-- The references of a file are judged by what its manifest allows. -/
theorem findings_run_singlyOf (o : RuleOptions) (s : Session) (file : SourceFile) :
    ∃ t, (file.findings o allowedPackages noteFinding).run s = ((singlyOf o s file).1, t) ∧
      s.Reported t (singlyOf o s file).2 := by
  unfold SourceFile.findings singlyOf
  rw [StateT.run'_eq, Analysis.collect_run_unsettled allowedPackages noteFinding rfl]
  -- the manifest is asked for once, and not at all if every reference is relative or built in
  split
  · cases hmanifest : Manifest.ofFile s file.fileName with
    | error f =>
        have hasked := allowedPackages_of_fault (Manifest.consult_of_ofFile_error hmanifest o)
        refine ⟨s, ?_, .refl s⟩
        rw [map_bind, run_bind, hasked]
    | ok loaded =>
        obtain ⟨m, problem⟩ := loaded
        obtain ⟨path, hconsult⟩ := Manifest.consult_of_ofFile hmanifest o
        obtain ⟨t, hasked, hst⟩ := allowedPackages_of_consult hconsult
        obtain ⟨u, hnoted, htu⟩ :=
          noteFindings_reported ((file.undeclared o (m.allowed o)).map file.findingAt) t
        refine ⟨u, ?_, by simpa using hst.trans htu⟩
        have hverdicts := filterMap_verdict_eq_undeclared file o (m.allowed o)
        rw [map_bind, run_bind_of_ok hasked]
        dsimp only
        rw [hverdicts, map_bind, run_bind_of_ok hnoted]
        rfl
  · exact ⟨s, rfl, .refl s⟩

theorem traceWith_reported (step : Log.Loggers → Log.Clock → Log.Loggers × List String)
    (s : Session) : ∃ t, (traceWith step).run s = (.ok (), t) ∧ s.Reported t [] :=
  ⟨_, rfl, ⟨⟨rfl, rfl⟩, rfl⟩⟩

/-- What is logged before and behind the findings of a file is no matter of the files. -/
theorem checkWith_run_singlyOf (o : RuleOptions) (s : Session) (file : SourceFile) :
    ∃ t, (checkWith allowedPackages file o).run s = ((singlyOf o s file).1, t) ∧
      s.Reported t (singlyOf o s file).2 := by
  unfold checkWith
  obtain ⟨u, hbegun, hsu⟩ := traceWith_reported
    (fun ls clock => ls.checkStarted clock (.text file.fileName) .null) s
  obtain ⟨v, hfound, huv⟩ := findings_run_singlyOf o u file
  rw [← singlyOf_congr o hsu.same] at hfound huv
  have hsv := hsu.trans huv
  rw [List.nil_append] at hsv
  rw [run_bind_of_ok hbegun, run_bind, hfound]
  cases hsingly : (singlyOf o s file).1 with
  | error f => exact ⟨v, rfl, hsv⟩
  | ok findings =>
      obtain ⟨w, hended, hvw⟩ := traceWith_reported (fun ls clock =>
        ls.checkCompleted clock (.text file.fileName) (.int 0) (.int findings.length)) v
      have hsw := hsv.trans hvw
      rw [List.append_nil] at hsw
      refine ⟨w, ?_, hsw⟩
      dsimp only
      rw [run_bind_of_ok hended]
      rfl

theorem applyTo_run_singly (o : RuleOptions) (s : Session) (p : Path) :
    ∃ t, (applyTo { options := o } p).run s = ((singly o s p).1, t) ∧
      s.Reported t (singly o s p).2 := by
  unfold applyTo singly
  rw [run_get_bind]
  cases SourceFile.load s.files s.workingDir p with
  | error f => exact ⟨s, rfl, .refl s⟩
  | ok file =>
      have hfile : (ofExcept (.ok file) : Run SourceFile).run s = (.ok file, s) := rfl
      rw [run_bind_of_ok hfile]
      exact checkWith_run_singlyOf o s file

theorem alone_eq_singly (o : RuleOptions) (s : Session) (p : Path) :
    alone { options := o } s p = (singly o s p).1 := by
  obtain ⟨t, hrun, -⟩ := applyTo_run_singly o s p
  rw [alone, hrun]

theorem problemsAlone_eq_singly (o : RuleOptions) (s : Session) (p : Path) :
    problemsAlone { options := o } s p = (singly o s p).2 := by
  obtain ⟨t, hrun, hst⟩ := applyTo_run_singly o s p
  rw [problemsAlone, hrun]
  exact hst.drop_problems

/-! ## Many files -/

section

variable {s t : Session} (h : s.SameFiles t) (o : RuleOptions)
include h

theorem alone_congr : alone { options := o } s = alone { options := o } t := by
  funext p
  rw [alone_eq_singly, alone_eq_singly, singly_congr o h]

theorem problemsAlone_congr :
    problemsAlone { options := o } s = problemsAlone { options := o } t := by
  funext p
  rw [problemsAlone_eq_singly, problemsAlone_eq_singly, singly_congr o h]

theorem settles_congr : settles { options := o } s = settles { options := o } t := by
  funext p
  unfold settles
  rw [alone_congr h]

theorem gathered_congr (paths : List Path) :
    gathered { options := o } s paths = gathered { options := o } t paths := by
  unfold gathered
  have hfound : foundAlone { options := o } s = foundAlone { options := o } t := by
    funext p
    unfold foundAlone
    rw [alone_congr h]
  have hfailure : failureAlone { options := o } s = failureAlone { options := o } t := by
    funext p
    unfold failureAlone
    rw [alone_congr h]
  rw [alone_congr h, problemsAlone_congr h, hfound, hfailure]

end

/-- A file that does not settle ends the check of the files. -/
theorem settles_of_checkEach {rule : Rule} (hrule : LocalResolver rule.resolver) {s t u : Session}
    (hst : s.SameFiles t) {paths : List Path} {r result : CheckResult}
    (h : (checkEach rule r paths).run t = (.ok result, u)) :
    ∀ p ∈ paths, settles rule s p = true := by
  induction paths generalizing r t with
  | nil => exact fun p hp => absurd hp List.not_mem_nil
  | cons p ps ih =>
      obtain ⟨found, t', hstep, hrest⟩ := run_bind_eq_ok_iff.mp h
      obtain ⟨v, happly, hv⟩ := applyTo_run hrule hst p
      have hsettles : settles rule s p = true := by
        unfold settles
        cases halone : alone rule s p with
        | ok findings => rfl
        | error f =>
            unfold outcome at hstep
            rw [run_tryCatch, map_eq_pure_bind, run_bind, happly, halone] at hstep
            dsimp only at hstep ⊢
            -- a fault of a value is an error of the result, and any other is thrown again
            split at hstep
            · next hvalue => exact hvalue
            · cases hstep
      obtain ⟨t'', hstep', ht''⟩ := outcome_run hrule hst hsettles
      rw [hstep] at hstep'
      obtain rfl := (Prod.mk.inj hstep').2
      intro q hq
      rcases List.mem_cons.mp hq with rfl | hmem
      · exact hsettles
      · exact ih (hst.trans ht''.same) hrest q hmem

/-- A check ends with a result if every file settles, and only then; the result is what the single
files come to. -/
theorem check_eq_ok_iff {o : RuleOptions} {s : Session} {paths : List Path} {result : CheckResult} :
    (∃ t, (check paths o).run s = (.ok result, t)) ↔
      (∀ p ∈ paths, settles { options := o } s p = true) ∧
        result = gathered { options := o } s paths := by
  have hrule : LocalResolver (Rule.resolver { options := o }) := local_allowedPackages
  constructor
  · rintro ⟨t, hrun⟩
    have hlistening : s.SameFiles (listening s) := ⟨rfl, rfl⟩
    -- that a check listens for problems makes no difference to how its files end
    have hsettles : ∀ p ∈ paths, settles { options := o } s p = true := by
      obtain ⟨-, ps, hps, -⟩ :=
        local_checkEach hrule paths {} (listening s) (listening s) (.refl _)
      have hall := checkAll_run (s := s) (Prod.mk.eta.symm : _ = (_, _)) hps
      unfold check at hrun
      rw [hall] at hrun
      cases heach : ((checkEach { options := o } {} paths).run (listening s)).1 with
      | error f =>
          rw [heach] at hrun
          cases hrun
      | ok r =>
          exact settles_of_checkEach hrule hlistening
            (Prod.ext heach rfl : (checkEach { options := o } {} paths).run (listening s) =
              (.ok r, _))
    obtain ⟨t', hrun', -⟩ := checkAll_gathered hrule (.refl s) hsettles
    have heq : (check paths o).run s = _ := hrun'
    rw [hrun] at heq
    exact ⟨hsettles, Except.ok.inj (Prod.mk.inj heq).1⟩
  · rintro ⟨hsettles, rfl⟩
    obtain ⟨t, hrun, -⟩ := checkAll_gathered hrule (.refl s) hsettles
    exact ⟨t, hrun⟩

end Run

end ImportAudit
