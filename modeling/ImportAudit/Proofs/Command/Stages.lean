/-
# ImportAudit.Proofs.Command.Stages — the stages of a check.

A check settles what it goes by (`basisOf`): settings, options and a format.  Then it goes on
(`proceed`): it refuses a file for what is not JSON, or finds the files, checks them and tells the
result.  What it goes by is taken from the settings and the request (`run_basisOf_eq_ok_iff`), and
settling it changes neither the files nor what was printed (`keeps_basisOf`).  If there are files and
all of them settle, the check comes to a result (`CheckRequest.ComesTo`), which is what the single
files come to (`check_eq_ok_gathered`).  A check that ends with a status has come to a result, or has
found nothing to check (`nothing_or_comesTo`).
-/
import ImportAudit.Proofs.Command.Output
import ImportAudit.Proofs.Session.Single

namespace ImportAudit.Command

open Run (run_bind run_bind_of_ok run_bind_eq_ok_iff run_ofExcept_bind_eq_ok_iff)

variable {s t u v : Session} {status : Nat} {r : CheckRequest} {result : CheckResult}

/-! ## Before files are looked for -/

/-- What a check goes by. -/
structure Basis where
  settings : Settings
  options : RuleOptions
  format : String

/-- Settles what a check goes by. -/
def basisOf (r : CheckRequest) : Run Basis := do
  let settings ← Run.loadSettings (r.settingsFile.map Path.ofString)
  configureLoggers r settings.logging
  let options ← Run.ofExcept (settings.rule.merged r.flags)
  let format ← Run.ofExcept (r.formatWith settings.output)
  pure ⟨settings, options, format⟩

/-- The file that results are to be written to cannot be used, as the format is not JSON. -/
def CheckRequest.misusesFile (r : CheckRequest) (b : Basis) : Bool :=
  (r.fileWith b.settings.output).truthy && b.format ≠ "json"

/-- What is said if a file cannot be used. -/
def misuseText : String := "Output file can only be used with JSON format"

/-- Checks the files that were found, if there are any, and tells the result. -/
def checkFound (r : CheckRequest) (b : Basis) (files : List Path) : Run Nat :=
  if files.isEmpty then do
    if !r.quiet then Run.say noticeText
    pure succeeded
  else checkFiles r b.options b.format (r.fileWith b.settings.output)
    (r.failsWith b.settings.output) files

/-- Goes on with what was settled. -/
def proceed (r : CheckRequest) (b : Basis) : Run Nat :=
  if r.misusesFile b then throw (.usage misuseText)
  else filesOf r.paths b.settings.discovery >>= checkFound r b

/-- Tells the result of a check, and makes a status of it. -/
def tell (r : CheckRequest) (b : Basis) (result : CheckResult) : Run Nat := do
  deliver b.format (r.fileWith b.settings.output) r result
  pure (statusOf (r.failsWith b.settings.output) result)

theorem check_eq (r : CheckRequest) : check r = basisOf r >>= proceed r := by
  unfold check basisOf proceed
  simp only [bind_assoc, pure_bind]
  rfl

/-- Where no file is named there is none to misuse. -/
theorem CheckRequest.misusesFile_of_noFile {b : Basis}
    (h : (r.fileWith b.settings.output).truthy = false) : r.misusesFile b = false := by
  unfold misusesFile
  rw [h, Bool.false_and]

theorem proceed_of_uses {b : Basis} (h : r.misusesFile b = false) :
    proceed r b = filesOf r.paths b.settings.discovery >>= checkFound r b := by
  unfold proceed
  rw [h, if_neg Bool.false_ne_true]

theorem proceed_of_misuses {b : Basis} (h : r.misusesFile b = true) :
    proceed r b = throw (.usage misuseText) := by
  unfold proceed
  rw [if_pos h]

/-- Files that were found are checked, and the result is told. -/
theorem checkFound_of_ne_nil (r : CheckRequest) (b : Basis) {files : List Path} (h : files ≠ []) :
    checkFound r b files = Run.check files b.options >>= tell r b := by
  have hempty : files.isEmpty = false := by simpa using h
  unfold checkFound
  rw [hempty, if_neg Bool.false_ne_true]
  rfl

/-- What a check goes by is what the settings and the request come to. -/
theorem run_basisOf_eq_ok_iff {b : Basis} :
    (basisOf r).run s = (.ok b, u) ↔
      ∃ t, (Run.loadSettings (r.settingsFile.map Path.ofString)).run s = (.ok b.settings, t) ∧
        (configureLoggers r b.settings.logging).run t = (.ok (), u) ∧
        b.settings.rule.merged r.flags = .ok b.options ∧
        r.formatWith b.settings.output = .ok b.format := by
  unfold basisOf
  constructor
  · intro h
    obtain ⟨settings, t, hload, hloaded⟩ := run_bind_eq_ok_iff.mp h
    obtain ⟨_, w, hloggers, hready⟩ := run_bind_eq_ok_iff.mp hloaded
    obtain ⟨options, hoptions, hmerged⟩ := run_ofExcept_bind_eq_ok_iff.mp hready
    obtain ⟨format, hformat, hend⟩ := run_ofExcept_bind_eq_ok_iff.mp hmerged
    obtain ⟨hb, rfl⟩ := Prod.mk.inj hend
    obtain rfl := Except.ok.inj hb
    exact ⟨t, hload, hloggers, hoptions, hformat⟩
  · rintro ⟨t, hload, hloggers, hoptions, hformat⟩
    rw [run_bind_of_ok hload, run_bind_of_ok hloggers]
    exact run_ofExcept_bind_eq_ok_iff.mpr
      ⟨b.options, hoptions, run_ofExcept_bind_eq_ok_iff.mpr ⟨b.format, hformat, rfl⟩⟩

theorem keeps_basisOf {γ : Type} {view : Session → γ} (hview : Session.Blind view)
    (r : CheckRequest) : Run.Keeps view (basisOf r) := by
  refine (Run.keeps_loadSettings hview _).bind fun settings => ?_
  refine (keeps_configureLoggers hview r settings.logging).bind fun _ => ?_
  refine (Run.keeps_ofExcept _).bind fun options => ?_
  exact (Run.keeps_ofExcept _).bind fun format => Run.keeps_pure _

theorem sameFiles_of_basisOf {b : Basis} (h : (basisOf r).run s = (.ok b, u)) :
    s.SameFiles u := by
  have hsame := (keeps_basisOf Session.blind_files r).of_run h
  exact ⟨(Prod.mk.inj hsame).1.symm, (Prod.mk.inj hsame).2.symm⟩

/-- The files are those that are found in the session that the check starts from. -/
theorem run_filesOf_iff {b : Basis} (h : (basisOf r).run s = (.ok b, u)) {files : List Path} :
    (filesOf r.paths b.settings.discovery).run u = (.ok files, v) ↔
      v = u ∧ (filesOf r.paths b.settings.discovery).run s = (.ok files, s) := by
  obtain ⟨hfiles, hdir⟩ := sameFiles_of_basisOf h
  constructor
  · intro hfound
    refine ⟨(run_filesOf_eq_ok_iff.mp hfound).1, run_filesOf_congr ?_ hfound⟩
    rw [hfiles, hdir]
  · rintro ⟨rfl, hfound⟩
    refine run_filesOf_congr ?_ hfound
    rw [hfiles, hdir]

/-! ## The result -/

/-- The check that a request asks for comes to a result: there is something to check, and checking
it ends with the result. -/
def CheckRequest.ComesTo (r : CheckRequest) (s : Session) (result : CheckResult) : Prop :=
  ∃ b u files v, (basisOf r).run s = (.ok b, u) ∧ r.misusesFile b = false ∧
    (filesOf r.paths b.settings.discovery).run s = (.ok files, s) ∧ files ≠ [] ∧
    (Run.check files b.options).run u = (.ok result, v)

/-- The result is what the single files come to. -/
theorem check_eq_ok_gathered {b : Basis} (h : (basisOf r).run s = (.ok b, u)) {files : List Path} :
    (∃ v, (Run.check files b.options).run u = (.ok result, v)) ↔
      (∀ p ∈ files, Run.settles { options := b.options } s p = true) ∧
        result = Run.gathered { options := b.options } s files := by
  have hsame := sameFiles_of_basisOf h
  rw [Run.check_eq_ok_iff, Run.settles_congr hsame, Run.gathered_congr hsame]

/-- A check that ends with a status has found nothing to check, or has come to a result. -/
theorem nothing_or_comesTo (h : (check r).run s = (.ok status, v)) :
    (∃ b u, (basisOf r).run s = (.ok b, u) ∧
      (filesOf r.paths b.settings.discovery).run s = (.ok [], s)) ∨
    ∃ result, r.ComesTo s result := by
  rw [check_eq] at h
  obtain ⟨b, u, hbasis, hproceed⟩ := run_bind_eq_ok_iff.mp h
  cases hfile : r.misusesFile b with
  | true =>
      rw [proceed_of_misuses hfile] at hproceed
      cases hproceed
  | false =>
      rw [proceed_of_uses hfile] at hproceed
      obtain ⟨files, w, hfound, hchecked⟩ := run_bind_eq_ok_iff.mp hproceed
      obtain ⟨rfl, hfiles⟩ := (run_filesOf_iff hbasis).mp hfound
      by_cases hnil : files = []
      · subst hnil
        exact .inl ⟨b, w, hbasis, hfiles⟩
      · right
        rw [checkFound_of_ne_nil r b hnil] at hchecked
        obtain ⟨result, x, hresult, -⟩ := run_bind_eq_ok_iff.mp hchecked
        exact ⟨result, b, w, files, x, hbasis, hfile, hfiles, hnil, hresult⟩

/-- A check that comes to a result goes on and tells it, and nothing is printed before. -/
theorem CheckRequest.ComesTo.exists_tell {b : Basis} (h : r.ComesTo s result)
    (hbasis : (basisOf r).run s = (.ok b, u)) :
    ∃ t, (check r).run s = (tell r b result).run t ∧ t.output = s.output := by
  obtain ⟨b', u', files, t, hbasis', hfile, hfiles, hne, hresult⟩ := h
  rw [hbasis] at hbasis'
  cases hbasis'
  have hfound := (run_filesOf_iff hbasis).mpr ⟨rfl, hfiles⟩
  refine ⟨t, ?_, ?_⟩
  · rw [check_eq, run_bind_of_ok hbasis, proceed_of_uses hfile, run_bind_of_ok hfound,
      checkFound_of_ne_nil r b hne, run_bind_of_ok hresult]
  · rw [(Run.keeps_check Session.blind_output.toBlindToLog files b.options).of_run hresult]
    exact (keeps_basisOf Session.blind_output r).of_run hbasis

/-- A check that comes to a result and prints it as JSON ends with the status of the result. -/
theorem CheckRequest.ComesTo.printsJson {b : Basis} (h : r.ComesTo s result)
    (hbasis : (basisOf r).run s = (.ok b, u)) (hjson : r.PrintsJson b.settings.output) :
    ∃ v, (check r).run s = (.ok (statusOf (r.failsWith b.settings.output) result), v) ∧
      v.output = s.output ++ result.toJson ++ "\n" := by
  obtain ⟨t, hcheck, houtput⟩ := h.exists_tell hbasis
  obtain ⟨-, -, -, -, hformat⟩ := run_basisOf_eq_ok_iff.mp hbasis
  have hjsonFormat : b.format = "json" := Except.ok.inj (hformat.symm.trans hjson.format)
  have hdeliver : (deliver b.format (r.fileWith b.settings.output) r result).run t =
      (.ok (), { t with output := t.output ++ result.toJson ++ "\n" }) := by
    unfold deliver
    rw [if_pos hjsonFormat]
    exact run_writeJson_of_noFile result hjson.noFile t
  refine ⟨{ t with output := t.output ++ result.toJson ++ "\n" }, ?_, by rw [houtput]⟩
  rw [hcheck]
  unfold tell
  rw [run_bind_of_ok hdeliver]
  rfl

end ImportAudit.Command
