/-
# ImportAudit.Proofs.Session.Batch — a check of many files, file by file.

What a check of many files comes to is put together from what each file comes to when it is checked
alone.  Files share the session, and what one of them leaves in it are logs, counts and reported
problems; a rule whose resolver goes by the files alone makes nothing of those.  One file is a step
(`outcome_run`), all of them are a run (`checkEach_run`), and around it the listener of the check
comes and goes (`checkAll_run`).
-/
import ImportAudit.Proofs.Session.Locality
import ImportAudit.Proofs.Session.Warnings

namespace ImportAudit

/-- Two results one after the other.  A warning that is among the first is not given again. -/
def CheckResult.join (r r' : CheckResult) : CheckResult where
  filesChecked := r.filesChecked + r'.filesChecked
  findings := r.findings ++ r'.findings
  errors := r.errors ++ r'.errors
  warnings := r.warnings ++ r'.warnings.filter fun text => text ∉ r.warnings

namespace Run

/-! ## A file that is checked alone -/

/-- What the check of a single file ends in. -/
def alone (rule : Rule) (s : Session) (p : Path) : Except Fault (List Finding) :=
  ((applyTo rule p).run s).1

/-- The problems that the check of a single file reports. -/
def problemsAlone (rule : Rule) (s : Session) (p : Path) : List Problem :=
  ((applyTo rule p).run s).2.handler.problems.drop s.handler.problems.length

/-- The findings that the check of a single file ends in, if it does. -/
def foundAlone (rule : Rule) (s : Session) (p : Path) : List Finding :=
  match alone rule s p with
  | .ok findings => findings
  | .error _ => []

/-- The message of the fault that the check of a single file ends in, if it does. -/
def failureAlone (rule : Rule) (s : Session) (p : Path) : Option String :=
  match alone rule s p with
  | .ok _ => none
  | .error f => some f.message

/-- The check of a single file ends in findings or in a fault of a value. -/
def settles (rule : Rule) (s : Session) (p : Path) : Bool :=
  match alone rule s p with
  | .ok _ => true
  | .error f => f.isOfValue

/-- What the checks of single files come to, one after the other. -/
def gathered (rule : Rule) (s : Session) (paths : List Path) : CheckResult where
  filesChecked := paths.countP fun p => (alone rule s p).isOk
  findings := paths.flatMap (foundAlone rule s)
  errors := paths.filterMap (failureAlone rule s)
  warnings := Problem.warnings (paths.flatMap (problemsAlone rule s))

theorem gathered_append (rule : Rule) (s : Session) (fs gs : List Path) :
    gathered rule s (fs ++ gs) = (gathered rule s fs).join (gathered rule s gs) := by
  simp only [gathered, CheckResult.join, List.countP_append, List.flatMap_append,
    List.filterMap_append, Problem.warnings_append, Int.natCast_add]
  rfl

/-- Every file is checked or told of. -/
theorem gathered_total (rule : Rule) (s : Session) (paths : List Path) :
    (gathered rule s paths).filesChecked + (gathered rule s paths).errors.length =
      paths.length := by
  induction paths with
  | nil => rfl
  | cons p ps ih =>
      simp only [gathered] at ih ⊢
      rw [List.countP_cons, List.filterMap_cons]
      cases hp : alone rule s p with
      | ok findings =>
          have hfailure : failureAlone rule s p = none := by rw [failureAlone, hp]
          have hok : (Except.ok findings : Except Fault (List Finding)).isOk = true := rfl
          rw [hfailure, if_pos hok, List.length_cons]
          dsimp only
          omega
      | error f =>
          have hfailure : failureAlone rule s p = some f.message := by rw [failureAlone, hp]
          have hok : ¬ (Except.error f : Except Fault (List Finding)).isOk = true := nofun
          rw [hfailure, if_neg hok, List.length_cons, List.length_cons]
          omega

/-- The result of a check under way, with what single files come to added. -/
def following (r g : CheckResult) : CheckResult := { r.join g with warnings := r.warnings }

theorem following_cons (rule : Rule) (s : Session) (r : CheckResult) (p : Path) (ps : List Path) :
    following (addOutcome r ((alone rule s p).mapError Fault.message)) (gathered rule s ps) =
      following r (gathered rule s (p :: ps)) := by
  cases hp : alone rule s p with
  | ok findings =>
      have hcount : (Except.ok findings : Except Fault (List Finding)).isOk = true := rfl
      simp [following, CheckResult.join, gathered, addOutcome, foundAlone, failureAlone,
        Except.mapError, hp, hcount]
      omega
  | error f =>
      have hcount : (Except.error f : Except Fault (List Finding)).isOk = false := rfl
      simp [following, CheckResult.join, gathered, addOutcome, foundAlone, failureAlone,
        Except.mapError, hp, hcount]

/-! ## One file after the other -/

section

variable {rule : Rule} (hrule : LocalResolver rule.resolver) {s t : Session}
include hrule

/-- A file is checked in a session as it is alone in another that shows the same files. -/
theorem applyTo_run (hst : s.SameFiles t) (p : Path) :
    ∃ u, (applyTo rule p).run t = (alone rule s p, u) ∧
      t.Reported u (problemsAlone rule s p) := by
  obtain ⟨hresult, ps, hs, ht⟩ := local_applyTo hrule p s t hst
  have hps : problemsAlone rule s p = ps := hs.drop_problems
  rw [hps]
  exact ⟨((applyTo rule p).run t).2, Prod.ext hresult.symm rfl, ht⟩

/-- The step: findings are kept, a fault of a value becomes its message, and both leave the reports
of the file behind. -/
theorem outcome_run (hst : s.SameFiles t) {p : Path} (hp : settles rule s p = true) :
    ∃ u, (outcome rule p).run t =
        (.ok ((alone rule s p).mapError Fault.message), u) ∧
      t.Reported u (problemsAlone rule s p) := by
  obtain ⟨u, hrun, hu⟩ := applyTo_run hrule hst p
  refine ⟨u, ?_, hu⟩
  unfold outcome
  rw [run_tryCatch, map_eq_pure_bind, run_bind, hrun]
  unfold settles at hp
  cases ha : alone rule s p with
  | ok findings => rfl
  | error f =>
      rw [ha] at hp
      dsimp only
      rw [if_pos hp]
      rfl

/-- The run: by induction on the paths, with any result to start from and any session that shows
the same files. -/
theorem checkEach_run {paths : List Path} (hpaths : ∀ p ∈ paths, settles rule s p = true)
    (r : CheckResult) (hst : s.SameFiles t) :
    ∃ u, (checkEach rule r paths).run t = (.ok (following r (gathered rule s paths)), u) ∧
      t.Reported u (paths.flatMap (problemsAlone rule s)) := by
  induction paths generalizing r t with
  | nil =>
      refine ⟨t, ?_, .refl t⟩
      simp [checkEach, following, CheckResult.join, gathered]
  | cons p ps ih =>
      -- the first file leaves the files as they are, so the others settle behind it as before
      obtain ⟨t', hstep, ht'⟩ := outcome_run hrule hst (hpaths p List.mem_cons_self)
      have hrest : ∀ q ∈ ps, settles rule s q = true :=
        fun q hq => hpaths q (List.mem_cons_of_mem p hq)
      obtain ⟨u, hrun, hu⟩ :=
        ih hrest (addOutcome r ((alone rule s p).mapError Fault.message)) (hst.trans ht'.same)
      refine ⟨u, ?_, ht'.trans hu⟩
      rw [checkEach, run_bind_of_ok hstep, ← following_cons]
      exact hrun

end

/-! ## The whole check -/

/-- The session with the listener of a check. -/
def listening (s : Session) : Session :=
  { s with handler := s.handler.add (warningListener s.handler) }

/-- The session of a check with its listener gone again. -/
def done (s t : Session) : Session :=
  { t with handler := t.handler.remove s.handler.freshName }

/-- What a check makes of a result: it gives it the warnings of the problems that were heard. -/
theorem checkAll_run {rule : Rule} {paths : List Path} {s t : Session} {ps : List Problem}
    {result : Except Fault CheckResult}
    (hrun : (checkEach rule {} paths).run (listening s) = (result, t))
    (hps : (listening s).Reported t ps) :
    (checkAll rule paths).run s =
      (result.map fun r => { r with warnings := Problem.warnings ps }, done s t) := by
  -- others hear the problems too, so what is heard has to be told apart by name
  have hheard : (done s t).handler.heard.drop s.handler.heard.length = ps.flatMap fun p =>
      (s.handler.listeners ++ [warningListener s.handler]).map fun l => (l.name, p) := by
    show t.handler.heard.drop s.handler.heard.length = _
    rw [hps.handler, Handler.foldl_report_heard]
    exact List.drop_left
  -- the listener goes whatever the run ends in
  have hafter : (andAfterwards (checkEach rule {} paths) fun t =>
      { t with handler := t.handler.remove (warningListener s.handler).name }).run
        { s with handler := s.handler.add (warningListener s.handler) } = (result, done s t) := by
    show (((checkEach rule {} paths).run (listening s)).1,
      done s ((checkEach rule {} paths).run (listening s)).2) = _
    rw [hrun]
  unfold checkAll
  rw [run_bind_of_ok (run_get s), run_bind_of_ok (run_modify _ s), run_bind, hafter]
  cases result with
  | error f => rfl
  | ok r =>
      show (Except.ok { r with
          warnings := warningsOf s.handler.freshName
            ((done s t).handler.heard.drop s.handler.heard.length) }, done s t) = _
      rw [hheard, warningsOf_freshName]
      rfl

/-- The listeners after a check are those before, whatever it ended in. -/
theorem done_listeners {s t : Session} {ps : List Problem} (h : (listening s).Reported t ps) :
    (done s t).handler.listeners = s.handler.listeners := by
  show Handler.removeFirst s.handler.freshName t.handler.listeners = _
  rw [h.handler, Handler.foldl_report_listeners]
  exact s.handler.removeFirst_freshName

theorem done_problems {s t : Session} {ps : List Problem} (h : (listening s).Reported t ps) :
    (done s t).handler.problems = s.handler.problems ++ ps := by
  show t.handler.problems = _
  rw [h.handler, Handler.foldl_report_problems]
  rfl

/-- If every file settles, the check comes to what the single files come to. -/
theorem checkAll_gathered {rule : Rule} (hrule : LocalResolver rule.resolver) {s u : Session}
    (hsu : s.SameFiles u) {paths : List Path} (hpaths : ∀ p ∈ paths, settles rule s p = true) :
    ∃ t, (checkAll rule paths).run u = (.ok (gathered rule s paths), t) ∧ u.SameFiles t ∧
      t.handler.problems = u.handler.problems ++ paths.flatMap (problemsAlone rule s) := by
  have hlistening : u.SameFiles (listening u) := ⟨rfl, rfl⟩
  obtain ⟨t, hrun, ht⟩ := checkEach_run hrule hpaths {} (hsu.trans hlistening)
  refine ⟨done u t, ?_, hlistening.trans ⟨ht.same.files, ht.same.workingDir⟩, done_problems ht⟩
  rw [checkAll_run hrun ht]
  simp [Except.map, following, CheckResult.join, gathered]

/-- For a rule whose resolver goes by the files, in any session:

* a check of files that all settle ends in what the files come to alone, in their order, whether
  they are checked or told of, and its warnings are those of the problems it reports;
* a check of two lists of files joins the checks of the lists, the second of which may be made in
  any session with the same files, also the one that the first leaves behind;
* whatever a check ends in, the listeners are those that there were before. -/
theorem checkAll_fileByFile {rule : Rule} (hrule : LocalResolver rule.resolver) (s : Session) :
    (∀ paths : List Path, (∀ p ∈ paths, settles rule s p = true) →
      ∃ t, (checkAll rule paths).run s = (.ok (gathered rule s paths), t) ∧ s.SameFiles t ∧
        t.handler.problems = s.handler.problems ++ paths.flatMap (problemsAlone rule s) ∧
        (gathered rule s paths).warnings =
          Problem.warnings (t.handler.problems.drop s.handler.problems.length) ∧
        (gathered rule s paths).filesChecked + (gathered rule s paths).errors.length =
          paths.length) ∧
    (∀ (fs gs : List Path) (u : Session), (∀ p ∈ fs ++ gs, settles rule s p = true) →
      s.SameFiles u → ∃ rf rg tf tg t, (checkAll rule fs).run s = (.ok rf, tf) ∧
        (checkAll rule gs).run u = (.ok rg, tg) ∧
        (checkAll rule (fs ++ gs)).run s = (.ok (rf.join rg), t)) ∧
    ∀ paths : List Path,
      ((checkAll rule paths).run s).2.handler.listeners = s.handler.listeners := by
  refine ⟨?_, ?_, ?_⟩
  · intro paths hpaths
    obtain ⟨t, hrun, hst, hproblems⟩ := checkAll_gathered hrule (.refl s) hpaths
    refine ⟨t, hrun, hst, hproblems, ?_, gathered_total rule s paths⟩
    rw [hproblems, List.drop_left]
    rfl
  · intro fs gs u hall hsu
    -- each part is gathered as from `s`, and so is the whole
    have hfs : ∀ p ∈ fs, settles rule s p = true :=
      fun p hp => hall p (List.mem_append_left gs hp)
    have hgs : ∀ p ∈ gs, settles rule s p = true :=
      fun p hp => hall p (List.mem_append_right fs hp)
    obtain ⟨tf, hrunf, -⟩ := checkAll_gathered hrule (.refl s) hfs
    obtain ⟨tg, hrung, -⟩ := checkAll_gathered hrule hsu hgs
    obtain ⟨t, hrun, -⟩ := checkAll_gathered hrule (.refl s) hall
    rw [gathered_append] at hrun
    exact ⟨_, _, tf, tg, t, hrunf, hrung, hrun⟩
  · intro paths
    -- no file need settle here: where a fault escapes, the reports before it are all there is
    obtain ⟨-, ps, hps, -⟩ := local_checkEach hrule paths {} (listening s) (listening s) (.refl _)
    rw [checkAll_run rfl hps]
    exact done_listeners hps

/-- A session with a source file that imports `x`, and a manifest that is not an object. -/
def withListManifest : Session where
  clock := ⟨"", ""⟩
  files := ⟨[(["a.ts"], .file [105, 109, 112, 111, 114, 116, 32, 39, 120, 39]),
    (["package.json"], .file [91, 93])]⟩

/-- The file is checked twice, a missing one between is told of, and the manifest is complained of
once, also where the check is made in two parts. -/
theorem checkAll_withListManifest :
    (∀ p ∈ [⟨"", ["a.ts"]⟩, ⟨"", ["b.ts"]⟩] ++ [⟨"", ["a.ts"]⟩],
        settles {} withListManifest p = true) ∧
      ∃ rf rg tf tg t,
        (checkAll {} [⟨"", ["a.ts"]⟩, ⟨"", ["b.ts"]⟩]).run withListManifest = (.ok rf, tf) ∧
        (checkAll {} [⟨"", ["a.ts"]⟩]).run withListManifest = (.ok rg, tg) ∧
        (checkAll {} ([⟨"", ["a.ts"]⟩, ⟨"", ["b.ts"]⟩] ++ [⟨"", ["a.ts"]⟩])).run withListManifest =
          (.ok (rf.join rg), t) ∧
        (rf.join rg).filesChecked = 2 ∧ (rf.join rg).errors.length = 1 ∧
        (rf.join rg).findings.map Finding.package = ["x", "x"] ∧
        (rf.join rg).warnings =
          ["/package.json: package.json must contain a JSON object, treating it as empty"] := by
  have hsettles : ∀ p ∈ [⟨"", ["a.ts"]⟩, ⟨"", ["b.ts"]⟩] ++ [⟨"", ["a.ts"]⟩],
      settles {} withListManifest p = true := by decide +kernel
  have hrule : LocalResolver (Rule.resolver {}) := local_allowedPackages
  obtain ⟨hall, hsplit, -⟩ := checkAll_fileByFile hrule withListManifest
  obtain ⟨rf, rg, tf, tg, t, hf, hg, hfg⟩ := hsplit _ _ withListManifest hsettles (.refl _)
  obtain ⟨t', hrun, -⟩ := hall _ hsettles
  have hjoin : rf.join rg = gathered {} withListManifest
      ([⟨"", ["a.ts"]⟩, ⟨"", ["b.ts"]⟩] ++ [⟨"", ["a.ts"]⟩]) :=
    Except.ok.inj (congrArg Prod.fst (hfg.symm.trans hrun))
  refine ⟨hsettles, rf, rg, tf, tg, t, hf, hg, hfg, ?_⟩
  rw [hjoin]
  decide +kernel

end Run

end ImportAudit
