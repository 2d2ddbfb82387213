/-
# ImportAudit.Proofs.Analysis.Findings — the findings of a file are its undeclared references.

`SourceFile.undeclared` lists, from all references of a file, those to packages that are neither
built in nor allowed nor ignored, and `SourceFile.findingAt` says what is found at a reference from
its position alone.  A check with a resolver that gives an answer ends, whatever the session, with
exactly these findings.
-/
import ImportAudit.Proofs.Analysis.Verdict
import ImportAudit.Proofs.Reference.Nodes
import ImportAudit.Proofs.Session.Steps
import ImportAudit.Session.Check
import Mathlib.Data.List.Basic
import Mathlib.Tactic.Tauto

namespace ImportAudit

/-! ## What has to be found -/

/-- The reference points at a package that is not built in, and that is neither among the packages
that may be imported nor ignored. -/
def Reference.isUndeclared (o : RuleOptions) (names : List String) (r : Reference) : Bool :=
  match Target.ofSpecifier r.text with
  | .relative => false
  | .builtin _ => false
  | .external package => package ∉ names ∧ package ∉ o.ignore

/-- The references of a file to undeclared packages, in text order, if `names` are the packages
that may be imported. -/
def SourceFile.undeclared (file : SourceFile) (o : RuleOptions) (names : List String) :
    List Reference :=
  file.allReferences.filter (Reference.isUndeclared o names)

/-- What is found at a reference of a file: the package that the text between the quotes begins
with, in this file, where the reference is. -/
def SourceFile.findingAt (file : SourceFile) (r : Reference) : Finding :=
  let package := Specifier.packageName (file.between (r.start + 1) (r.stop - 1))
  { package := package
    message := Finding.messageFor package
    fileName := file.fileName
    line := r.line
    column := r.column
    start := r.start
    stop := r.stop }

/-- A package that has to be declared is the one that the specifier begins with. -/
theorem packageName_of_ofSpecifier {text package : String}
    (h : Target.ofSpecifier text = .external package) :
    Specifier.packageName text = package := by
  unfold Target.ofSpecifier at h
  split at h
  · cases h
  · dsimp only at h
    split at h
    · cases h
    · exact Target.external.inj h

/-- The verdict on a reference of the file is its finding if it is undeclared, and nothing else. -/
theorem Analysis.verdict_eq_findingAt (file : SourceFile) (o : RuleOptions) (names : List String)
    {r : Reference} (hr : r ∈ file.allReferences) :
    (Analysis.ofFile file o).verdict names r =
      if r.isUndeclared o names then some (file.findingAt r) else none := by
  have htext : r.text = file.between (r.start + 1) (r.stop - 1) := file.text_eq_between hr
  unfold verdict Reference.isUndeclared
  cases ht : Target.ofSpecifier r.text with
  | relative => rfl
  | builtin p => rfl
  | external p =>
      have hp : Specifier.packageName (file.between (r.start + 1) (r.stop - 1)) = p := by
        rw [← htext]
        exact packageName_of_ofSpecifier ht
      by_cases hpass : p ∈ names ∨ p ∈ o.ignore
      · have hno : ¬(p ∉ names ∧ p ∉ o.ignore) := by tauto
        simp [passes, RuleOptions.ignores, hpass, hno]
      · have hyes : p ∉ names ∧ p ∉ o.ignore := by tauto
        simp [passes, RuleOptions.ignores, hyes, SourceFile.findingAt, Finding.ofReference, hp]

/-- The verdicts on all references of a file make the list of what has to be found. -/
theorem filterMap_verdict_eq_undeclared (file : SourceFile) (o : RuleOptions)
    (names : List String) :
    file.allReferences.filterMap ((Analysis.ofFile file o).verdict names) =
      (file.undeclared o names).map file.findingAt := by
  unfold SourceFile.undeclared
  rw [← List.filterMap_eq_map, List.filterMap_filter]
  refine List.filterMap_congr fun r hr => ?_
  rw [Analysis.verdict_eq_findingAt file o names hr]
  rfl

/-! ## Checking a file -/

namespace Run

/-- The session in which the check of a file has begun. -/
def begun (file : SourceFile) (s : Session) : Session :=
  { s with
    loggers := (s.loggers.checkStarted s.clock (.text file.fileName) .null).1
    log := s.log ++ (s.loggers.checkStarted s.clock (.text file.fileName) .null).2 }

/-- Findings are logged without fault. -/
theorem forM_noteFinding (findings : List Finding) (s : Session) :
    ∃ t, (forM findings noteFinding : Run Unit).run s = (.ok (), t) := by
  induction findings generalizing s with
  | nil => exact ⟨s, rfl⟩
  | cons f rest ih =>
      have hf : ∃ t, (noteFinding f).run s = (.ok (), t) := ⟨_, rfl⟩
      obtain ⟨t, ht⟩ := hf
      rw [List.forM_cons, run_bind_of_ok ht]
      exact ih t

/-- The findings of a file, by a resolver that answers `names` when it is asked. -/
theorem findings_run {resolver : Resolver Run} {file : SourceFile} {o : RuleOptions}
    {names : List String} {s t : Session}
    (h : (resolver file.fileName o).run s = (.ok names, t)) :
    ∃ u, (file.findings o resolver noteFinding).run s =
      (.ok ((file.undeclared o names).map file.findingAt), u) := by
  have hverdicts := filterMap_verdict_eq_undeclared file o names
  unfold SourceFile.findings
  rw [StateT.run'_eq, Analysis.collect_run_unsettled resolver noteFinding rfl]
  cases hany : file.allReferences.any Reference.isExternal with
  | false =>
      -- the resolver is not asked, and there is nothing that it could have been asked about
      have hnil := Analysis.filterMap_verdict_of_not_any (.ofFile file o) names hany
      rw [← hverdicts, hnil]
      exact ⟨s, rfl⟩
  | true =>
      obtain ⟨u, hu⟩ := forM_noteFinding ((file.undeclared o names).map file.findingAt) t
      refine ⟨u, ?_⟩
      rw [if_pos rfl, map_bind, run_bind_of_ok h, hverdicts, map_bind, run_bind_of_ok hu]
      rfl

/-- A check of a file with a resolver that answers `names` ends with one finding for each reference
to an undeclared package, in text order, made of that reference's position in the file. -/
theorem checkWith_eq_undeclared (resolver : Resolver Run) (file : SourceFile) (o : RuleOptions)
    (names : List String) (s t : Session)
    (h : (resolver file.fileName o).run (begun file s) = (.ok names, t)) :
    ∃ u, (checkWith resolver file o).run s =
      (.ok ((file.undeclared o names).map file.findingAt), u) := by
  obtain ⟨u, hu⟩ := findings_run h
  have hbegin : (traceWith fun ls clock =>
      ls.checkStarted clock (.text file.fileName) .null).run s = (.ok (), begun file s) := rfl
  unfold checkWith
  rw [run_bind_of_ok hbegin, run_bind_of_ok hu]
  exact ⟨_, rfl⟩

/-- Of a file that imports an undeclared package twice, a declared one and a module of its own, the
undeclared package is found both times. -/
theorem checkWith_repeated_undeclared :
    ∃ u, (checkWith (fun _ _ => pure ["a"])
        ⟨"m.ts", "import '@s/p/x'; import 'a';\nimport './c'; require('@s/p')"⟩
        {}).run { clock := ⟨"", ""⟩ } =
      (.ok [⟨"@s/p", Finding.messageFor "@s/p", "m.ts", 1, 8, 7, 15, ruleName⟩,
        ⟨"@s/p", Finding.messageFor "@s/p", "m.ts", 2, 23, 51, 57, ruleName⟩], u) := by
  obtain ⟨u, hu⟩ := checkWith_eq_undeclared (fun _ _ => pure ["a"])
    ⟨"m.ts", "import '@s/p/x'; import 'a';\nimport './c'; require('@s/p')"⟩
    {} ["a"] { clock := ⟨"", ""⟩ } _ (run_pure ["a"] _)
  have hfindings : (SourceFile.undeclared
      ⟨"m.ts", "import '@s/p/x'; import 'a';\nimport './c'; require('@s/p')"⟩
      {} ["a"]).map (SourceFile.findingAt
      ⟨"m.ts", "import '@s/p/x'; import 'a';\nimport './c'; require('@s/p')"⟩) =
      [⟨"@s/p", Finding.messageFor "@s/p", "m.ts", 1, 8, 7, 15, ruleName⟩,
        ⟨"@s/p", Finding.messageFor "@s/p", "m.ts", 2, 23, 51, 57, ruleName⟩] := by
    decide +kernel
  exact ⟨u, hu.trans (congrArg (fun findings => (Except.ok findings, u)) hfindings)⟩

end Run

end ImportAudit
