/-
# ImportAudit.Proofs.Session.Locality — runs that go by the files alone.

Two sessions show the same files if they have the same tree and the same working directory.  A run
is local if in all such sessions it ends in the same way and reports the same problems, and if it
changes neither the files nor who listens.  Whatever else a session holds, such as logs, counts and
problems reported before, then has no influence.  Local runs compose, and checking a file is one
(`local_applyTo`) if the resolver is, as the one that consults manifests is
(`local_allowedPackages`).
-/
import ImportAudit.Proofs.Analysis.Verdict
import ImportAudit.Proofs.Session.Steps
import ImportAudit.Session.Check

namespace ImportAudit

/-! ## Reports -/

/-- Two sessions show the same files. -/
structure Session.SameFiles (s t : Session) : Prop where
  files : s.files = t.files
  workingDir : s.workingDir = t.workingDir

theorem Session.SameFiles.refl (s : Session) : s.SameFiles s := ⟨rfl, rfl⟩

theorem Session.SameFiles.symm {s t : Session} (h : s.SameFiles t) : t.SameFiles s :=
  ⟨h.files.symm, h.workingDir.symm⟩

theorem Session.SameFiles.trans {s t u : Session} (h : s.SameFiles t) (h' : t.SameFiles u) :
    s.SameFiles u :=
  ⟨h.files.trans h'.files, h.workingDir.trans h'.workingDir⟩

/-- The session `t` shows the same files as `s`, and its handler is that of `s` after reports of the
problems. -/
structure Session.Reported (s t : Session) (problems : List Problem) : Prop where
  same : s.SameFiles t
  handler : t.handler = problems.foldl Handler.report s.handler

theorem Session.Reported.refl (s : Session) : s.Reported s [] := ⟨.refl s, rfl⟩

theorem Session.Reported.trans {s t u : Session} {ps qs : List Problem} (h : s.Reported t ps)
    (h' : t.Reported u qs) : s.Reported u (ps ++ qs) where
  same := h.same.trans h'.same
  handler := by rw [h'.handler, h.handler, List.foldl_append]

namespace Handler

theorem foldl_report_listeners (ps : List Problem) (h : Handler) :
    (ps.foldl report h).listeners = h.listeners := by
  induction ps generalizing h with
  | nil => rfl
  | cons p ps ih => exact ih (h.report p)

theorem foldl_report_problems (ps : List Problem) (h : Handler) :
    (ps.foldl report h).problems = h.problems ++ ps := by
  induction ps generalizing h with
  | nil => exact (List.append_nil _).symm
  | cons p ps ih =>
      rw [List.foldl_cons, ih, report, List.append_assoc, List.singleton_append]

/-- Every problem is heard by every listener, in the order of the reports. -/
theorem foldl_report_heard (ps : List Problem) (h : Handler) :
    (ps.foldl report h).heard =
      h.heard ++ ps.flatMap fun p => h.listeners.map fun l => (l.name, p) := by
  induction ps generalizing h with
  | nil => exact (List.append_nil _).symm
  | cons p ps ih =>
      rw [List.foldl_cons, ih, List.flatMap_cons, ← List.append_assoc]
      rfl

end Handler

/-- The problems that were reported between two sessions. -/
theorem Session.Reported.drop_problems {s t : Session} {ps : List Problem} (h : s.Reported t ps) :
    t.handler.problems.drop s.handler.problems.length = ps := by
  rw [h.handler, Handler.foldl_report_problems, List.drop_left]

namespace Run

variable {α β : Type}

/-! ## Runs that do alike -/

/-- In sessions that show the same files the two runs end in the same way and report the same
problems. -/
def Alike (x y : Run α) : Prop :=
  ∀ s t : Session, s.SameFiles t →
    (x.run s).1 = (y.run t).1 ∧
      ∃ ps, s.Reported (x.run s).2 ps ∧ t.Reported (y.run t).2 ps

/-- The run goes by the files alone. -/
def Local (x : Run α) : Prop := Alike x x

theorem local_pure (a : α) : Local (pure a : Run α) := by
  intro s t _
  exact ⟨rfl, [], .refl s, .refl t⟩

theorem local_throw (f : Fault) : Local (throw f : Run α) := by
  intro s t _
  exact ⟨rfl, [], .refl s, .refl t⟩

theorem local_ofExcept (r : Except Fault α) : Local (ofExcept r) := by
  cases r with
  | ok a => exact local_pure a
  | error f => exact local_throw f

/-- Runs that do alike leave sessions behind that show the same files. -/
theorem Alike.runs {x y : Run α} (h : Alike x y) {s t : Session} (hst : s.SameFiles t) :
    ∃ result s' t' ps, x.run s = (result, s') ∧ y.run t = (result, t') ∧
      s.Reported s' ps ∧ t.Reported t' ps ∧ s'.SameFiles t' := by
  obtain ⟨hresult, ps, hs, ht⟩ := h s t hst
  have hst' : (x.run s).2.SameFiles (y.run t).2 := hs.same.symm.trans (hst.trans ht.same)
  exact ⟨(x.run s).1, (x.run s).2, (y.run t).2, ps, rfl, Prod.ext hresult.symm rfl, hs, ht, hst'⟩

theorem Alike.bind {x y : Run α} {f g : α → Run β} (hx : Alike x y)
    (hf : ∀ a, Alike (f a) (g a)) : Alike (x >>= f) (y >>= g) := by
  intro s t hst
  obtain ⟨result, s', t', ps, hxs, hyt, hs, ht, hst'⟩ := hx.runs hst
  rw [run_bind, run_bind, hxs, hyt]
  cases result with
  | error e => exact ⟨rfl, ps, hs, ht⟩
  | ok a =>
      -- what follows starts in sessions that still show the same files
      obtain ⟨hend, qs, hs', ht'⟩ := hf a s' t' hst'
      exact ⟨hend, ps ++ qs, hs.trans hs', ht.trans ht'⟩

theorem Alike.map {x y : Run α} (hx : Alike x y) (f : α → β) : Alike (f <$> x) (f <$> y) := by
  rw [map_eq_pure_bind, map_eq_pure_bind]
  exact hx.bind fun a => local_pure (f a)

theorem Alike.tryCatch {x y : Run α} {f g : Fault → Run α} (hx : Alike x y)
    (hf : ∀ e, Alike (f e) (g e)) : Alike (tryCatch x f) (tryCatch y g) := by
  intro s t hst
  obtain ⟨result, s', t', ps, hxs, hyt, hs, ht, hst'⟩ := hx.runs hst
  rw [run_tryCatch, run_tryCatch, hxs, hyt]
  cases result with
  | ok a => exact ⟨rfl, ps, hs, ht⟩
  | error e =>
      -- reports made before the fault stay
      obtain ⟨hend, qs, hs', ht'⟩ := hf e s' t' hst'
      exact ⟨hend, ps ++ qs, hs.trans hs', ht.trans ht'⟩

/-- What a run makes of its session may differ in all but the files. -/
theorem Alike.get_bind {f g : Session → Run α}
    (hf : ∀ s t : Session, s.SameFiles t → Alike (f s) (g t)) : Alike (get >>= f) (get >>= g) := by
  intro s t hst
  rw [run_bind_of_ok (run_get s), run_bind_of_ok (run_get t)]
  exact hf s t hst s t hst

theorem alike_trace (lines lines' : List String) : Alike (trace lines) (trace lines') := by
  intro s t _
  exact ⟨rfl, [], ⟨⟨rfl, rfl⟩, rfl⟩, ⟨⟨rfl, rfl⟩, rfl⟩⟩

theorem local_traceWith (step : Log.Loggers → Log.Clock → Log.Loggers × List String) :
    Local (traceWith step) := by
  intro s t _
  exact ⟨rfl, [], ⟨⟨rfl, rfl⟩, rfl⟩, ⟨⟨rfl, rfl⟩, rfl⟩⟩

theorem local_reportAny (p : Option Problem) : Local (reportAny p) := by
  cases p with
  | none => exact local_pure ()
  | some p =>
      intro s t _
      exact ⟨rfl, [p], ⟨⟨rfl, rfl⟩, rfl⟩, ⟨⟨rfl, rfl⟩, rfl⟩⟩

theorem local_forM {f : α → Run Unit} (hf : ∀ a, Local (f a)) (xs : List α) :
    Local (forM xs f : Run Unit) := by
  induction xs with
  | nil => exact local_pure ()
  | cons x xs ih =>
      rw [List.forM_cons]
      exact Alike.bind (hf x) fun _ => ih

/-! ## Checking a file is local -/

/-- The resolver goes by the files alone. -/
def LocalResolver (resolver : Resolver Run) : Prop :=
  ∀ file o, Local (resolver file o)

theorem local_allowedPackages : LocalResolver allowedPackages := by
  intro file o
  unfold allowedPackages
  apply Alike.get_bind
  intro s t hst
  -- the session is read for its files; what it is read for besides goes to the log
  rw [hst.files, hst.workingDir]
  refine Alike.bind (local_ofExcept _) fun c => ?_
  refine Alike.bind (local_reportAny c.problem) fun _ => ?_
  exact Alike.bind (alike_trace _ _) fun _ => local_pure c.allowed

theorem local_noteFinding (f : Finding) : Local (noteFinding f) := by
  unfold noteFinding
  exact Alike.get_bind fun s t _ => alike_trace _ _

theorem local_findings {resolver : Resolver Run} (h : LocalResolver resolver) (file : SourceFile)
    (o : RuleOptions) : Local (file.findings o resolver noteFinding) := by
  unfold SourceFile.findings
  rw [StateT.run'_eq, Analysis.collect_run_unsettled resolver noteFinding rfl]
  apply Alike.map
  split
  · refine Alike.bind (h file.fileName o) fun names => ?_
    exact Alike.bind (local_forM local_noteFinding _) fun _ => local_pure _
  · exact local_pure _

theorem local_checkWith {resolver : Resolver Run} (h : LocalResolver resolver) (file : SourceFile)
    (o : RuleOptions) : Local (checkWith resolver file o) := by
  unfold checkWith
  refine Alike.bind (local_traceWith _) fun _ => ?_
  refine Alike.bind (local_findings h file o) fun findings => ?_
  exact Alike.bind (local_traceWith _) fun _ => local_pure findings

theorem local_applyTo {rule : Rule} (h : LocalResolver rule.resolver) (path : Path) :
    Local (applyTo rule path) := by
  unfold applyTo
  apply Alike.get_bind
  intro s t hst
  rw [hst.files, hst.workingDir]
  refine Alike.bind (local_ofExcept _) fun file => ?_
  exact local_checkWith h file rule.options

theorem local_outcome {rule : Rule} (h : LocalResolver rule.resolver) (path : Path) :
    Local (outcome rule path) := by
  unfold outcome
  refine Alike.tryCatch ((local_applyTo h path).map Except.ok) fun f => ?_
  split
  · exact local_pure _
  · exact local_throw f

theorem local_checkEach {rule : Rule} (h : LocalResolver rule.resolver) (paths : List Path) :
    ∀ r : CheckResult, Local (checkEach rule r paths) := by
  induction paths with
  | nil => exact fun r => local_pure r
  | cons p ps ih =>
      intro r
      exact Alike.bind (local_outcome h p) fun found => ih (addOutcome r found)

end Run

end ImportAudit
