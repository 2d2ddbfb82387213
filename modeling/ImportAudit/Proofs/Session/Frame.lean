/-
# ImportAudit.Proofs.Session.Frame — what a run leaves as it is.

A run keeps a view of the session if the view shows the same before and behind it, whatever the run
ends in.  Keeping is closed under the combinators of runs.  A view that is blind to what a program
does on the side (it reports problems, prints warnings, writes to the log and holds settings) is
kept by loading settings (`keeps_loadSettings`) and by checking files (`keeps_check`); what was
printed, the environment and the files are such views.  Checking files prints no warnings, so it
keeps what was printed where errors go as well.
-/
import ImportAudit.Proofs.Analysis.Verdict
import ImportAudit.Proofs.Session.Steps
import ImportAudit.Session.Check
import ImportAudit.Session.Setup

namespace ImportAudit

/-- The view of a session does not show which problems are reported and what is logged. -/
structure Session.BlindToLog {γ : Type} (view : Session → γ) : Prop where
  handler : ∀ s h, view { s with handler := h } = view s
  log : ∀ s lines, view { s with log := lines } = view s
  loggers : ∀ s ls, view { s with loggers := ls } = view s

/-- The view of a session does not show what happens on the side. -/
structure Session.BlindAside {γ : Type} (view : Session → γ) : Prop
    extends Session.BlindToLog view where
  errors : ∀ s text, view { s with errors := text } = view s

/-- The view does not show which settings are kept either. -/
structure Session.Blind {γ : Type} (view : Session → γ) : Prop extends Session.BlindAside view where
  settings : ∀ s kept, view { s with settings := kept } = view s

theorem Session.blindToLog_errors : Session.BlindToLog Session.errors :=
  ⟨fun _ _ => rfl, fun _ _ => rfl, fun _ _ => rfl⟩

theorem Session.blind_output : Session.Blind Session.output :=
  ⟨⟨⟨fun _ _ => rfl, fun _ _ => rfl, fun _ _ => rfl⟩, fun _ _ => rfl⟩, fun _ _ => rfl⟩

theorem Session.blind_environment : Session.Blind Session.environment :=
  ⟨⟨⟨fun _ _ => rfl, fun _ _ => rfl, fun _ _ => rfl⟩, fun _ _ => rfl⟩, fun _ _ => rfl⟩

/-- The files of a session and where it runs. -/
theorem Session.blind_files : Session.Blind fun s => (s.files, s.workingDir) :=
  ⟨⟨⟨fun _ _ => rfl, fun _ _ => rfl, fun _ _ => rfl⟩, fun _ _ => rfl⟩, fun _ _ => rfl⟩

theorem Session.blindAside_settings : Session.BlindAside Session.settings :=
  ⟨⟨fun _ _ => rfl, fun _ _ => rfl, fun _ _ => rfl⟩, fun _ _ => rfl⟩

namespace Run

variable {α β γ : Type} {view : Session → γ}

/-- The run leaves what the view shows as it is, also where it ends in a fault. -/
def Keeps (view : Session → γ) (x : Run α) : Prop := ∀ s, view (x.run s).2 = view s

/-! ## Combinators -/

theorem Keeps.of_run {x : Run α} (h : Keeps view x) {s t : Session} {result : Except Fault α}
    (hrun : x.run s = (result, t)) : view t = view s := by
  rw [← h s, hrun]

theorem keeps_pure (a : α) : Keeps view (pure a : Run α) := fun _ => rfl

theorem keeps_throw (f : Fault) : Keeps view (throw f : Run α) := fun _ => rfl

theorem keeps_get : Keeps view (get : Run Session) := fun _ => rfl

theorem keeps_ofExcept (r : Except Fault α) : Keeps view (ofExcept r) := by
  cases r with
  | ok a => exact keeps_pure a
  | error f => exact keeps_throw f

theorem keeps_modify {change : Session → Session} (h : ∀ s, view (change s) = view s) :
    Keeps view (modify change : Run Unit) := h

theorem Keeps.bind {x : Run α} {f : α → Run β} (hx : Keeps view x)
    (hf : ∀ a, Keeps view (f a)) : Keeps view (x >>= f) := by
  intro s
  rw [run_bind]
  match h : x.run s with
  | (.ok a, t) => exact (hf a t).trans (hx.of_run h)
  | (.error e, t) => exact hx.of_run h

theorem Keeps.map {x : Run α} (hx : Keeps view x) (f : α → β) : Keeps view (f <$> x) := by
  rw [map_eq_pure_bind]
  exact hx.bind fun a => keeps_pure (f a)

theorem Keeps.tryCatch {x : Run α} {f : Fault → Run α} (hx : Keeps view x)
    (hf : ∀ e, Keeps view (f e)) : Keeps view (tryCatch x f) := by
  intro s
  rw [run_tryCatch]
  match h : x.run s with
  | (.ok a, t) => exact hx.of_run h
  | (.error e, t) => exact (hf e t).trans (hx.of_run h)

theorem keeps_forM {f : α → Run Unit} (hf : ∀ a, Keeps view (f a)) (xs : List α) :
    Keeps view (forM xs f : Run Unit) := by
  induction xs with
  | nil => exact keeps_pure ()
  | cons x xs ih =>
      rw [List.forM_cons]
      exact (hf x).bind fun _ => ih

theorem Keeps.andAfterwards {x : Run α} {change : Session → Session} (hx : Keeps view x)
    (h : ∀ s, view (change s) = view s) : Keeps view (andAfterwards x change) :=
  fun s => (h _).trans (hx s)

/-! ## On the side -/

theorem keeps_findSettingsFile (start : Option Path) : Keeps view (findSettingsFile start) :=
  keeps_get.bind fun _ => keeps_ofExcept _

section

variable (hview : Session.BlindToLog view)
include hview

theorem keeps_trace (lines : List String) : Keeps view (trace lines) :=
  keeps_modify fun s => hview.log s _

theorem keeps_traceWith (step : Log.Loggers → Log.Clock → Log.Loggers × List String) :
    Keeps view (traceWith step) := by
  intro s
  exact (hview.log { s with loggers := (step s.loggers s.clock).1 } _).trans (hview.loggers s _)

theorem keeps_report (p : Problem) : Keeps view (report p) := by
  intro s
  exact (hview.log { s with handler := s.handler.report p } _).trans (hview.handler s _)

theorem keeps_reportAny (p : Option Problem) : Keeps view (reportAny p) := by
  cases p with
  | none => exact keeps_pure ()
  | some p => exact keeps_report hview p

end

section

variable (hview : Session.BlindAside view)
include hview

theorem keeps_warnAt (width : Nat) (text : String) : Keeps view (warnAt width text) :=
  (keeps_ofExcept _).bind fun _ => keeps_modify fun s => hview.errors s _

theorem keeps_warnAll (texts : List String) : Keeps view (warnAll texts) := by
  induction texts with
  | nil => exact keeps_pure ()
  | cons text texts ih => exact (keeps_warnAt hview _ text).bind fun _ => ih

/-! ## Settings -/

theorem keeps_readSettingsFile (path : Path) : Keeps view (readSettingsFile path) := by
  unfold readSettingsFile
  refine keeps_get.bind fun s => (keeps_ofExcept _).bind fun present => ?_
  cases present with
  | false => exact keeps_pure _
  | true =>
      rw [if_neg (by decide)]
      cases Settings.readFile s.files s.workingDir path with
      | ok v => exact keeps_pure v
      | error f =>
          refine (keeps_report hview.toBlindToLog _).bind fun _ => ?_
          exact (keeps_warnAt hview _ _).bind fun _ => keeps_pure _

theorem keeps_buildSettings (file : Value) : Keeps view (buildSettings file) := by
  refine (keeps_warnAll hview _).bind fun _ => (keeps_ofExcept _).bind fun _ => ?_
  exact keeps_get.bind fun _ => keeps_pure _

theorem keeps_settle (settings : Settings) (os : List Settings.Objection) :
    Keeps view (settle settings os) := by
  cases os with
  | nil => exact keeps_pure settings
  | cons o os =>
      refine (keeps_warnAt hview _ _).bind fun _ => (keeps_warnAll hview _).bind fun _ => ?_
      exact (keeps_warnAt hview _ _).bind fun _ => keeps_pure _

end

/-! ## Checking files -/

section

variable (hview : Session.BlindToLog view)
include hview

theorem keeps_allowedPackages (file : String) (o : RuleOptions) :
    Keeps view (allowedPackages file o) := by
  refine keeps_get.bind fun s => (keeps_ofExcept _).bind fun c => ?_
  refine (keeps_reportAny hview c.problem).bind fun _ => ?_
  exact (keeps_trace hview _).bind fun _ => keeps_pure c.allowed

theorem keeps_noteFinding (f : Finding) : Keeps view (noteFinding f) :=
  keeps_get.bind fun _ => keeps_trace hview _

theorem keeps_findings {resolver : Resolver Run} (h : ∀ file o, Keeps view (resolver file o))
    (file : SourceFile) (o : RuleOptions) : Keeps view (file.findings o resolver noteFinding) := by
  unfold SourceFile.findings
  rw [StateT.run'_eq, Analysis.collect_run_unsettled resolver noteFinding rfl]
  apply Keeps.map
  split
  · refine (h file.fileName o).bind fun names => ?_
    exact (keeps_forM (keeps_noteFinding hview) _).bind fun _ => keeps_pure _
  · exact keeps_pure _

theorem keeps_outcome {rule : Rule} (h : ∀ file o, Keeps view (rule.resolver file o))
    (path : Path) : Keeps view (outcome rule path) := by
  have hcheck : ∀ file, Keeps view (checkWith rule.resolver file rule.options) := by
    intro file
    refine (keeps_traceWith hview _).bind fun _ => ?_
    refine (keeps_findings hview h file _).bind fun findings => ?_
    exact (keeps_traceWith hview _).bind fun _ => keeps_pure findings
  refine Keeps.tryCatch (Keeps.map ?_ _) fun f => ?_
  · exact keeps_get.bind fun _ => (keeps_ofExcept _).bind hcheck
  · split
    · exact keeps_pure _
    · exact keeps_throw f

theorem keeps_checkEach {rule : Rule} (h : ∀ file o, Keeps view (rule.resolver file o))
    (paths : List Path) : ∀ r : CheckResult, Keeps view (checkEach rule r paths) := by
  induction paths with
  | nil => exact fun r => keeps_pure r
  | cons p ps ih => exact fun r => (keeps_outcome hview h p).bind fun found => ih (addOutcome r found)

theorem keeps_checkAll {rule : Rule} (h : ∀ file o, Keeps view (rule.resolver file o))
    (paths : List Path) : Keeps view (checkAll rule paths) := by
  refine keeps_get.bind fun s => (keeps_modify fun s => hview.handler s _).bind fun _ => ?_
  refine Keeps.bind ?_ fun r => keeps_get.bind fun _ => keeps_pure _
  exact (keeps_checkEach hview h paths {}).andAfterwards fun s => hview.handler s _

theorem keeps_check (paths : List Path) (o : RuleOptions) : Keeps view (check paths o) := by
  unfold check
  refine keeps_checkAll hview ?_ paths
  intro file o
  exact keeps_allowedPackages hview file o

end

/-! ## Loading settings -/

/-- Loads the settings anew, from a file if there is one, and does not keep them yet. -/
def prepareSettings (file : Option Path) : Run Settings := do
  let data ← match file with
    | none => pure .null
    | some path => readSettingsFile path
  let built ← buildSettings data
  settle built (← ofExcept built.objections)

theorem reloadSettings_eq (file : Option Path) :
    reloadSettings file = (do
      let settings ← prepareSettings file
      modify fun s => { s with settings := some settings }
      pure settings) := by
  unfold reloadSettings prepareSettings
  cases file <;> simp only [bind_assoc]

theorem keeps_prepareSettings (hview : Session.BlindAside view) (file : Option Path) :
    Keeps view (prepareSettings file) := by
  have hbuild : ∀ data : Value, Keeps view (do
      let built ← buildSettings data
      settle built (← ofExcept built.objections) : Run Settings) := fun data =>
    (keeps_buildSettings hview data).bind fun built => (keeps_ofExcept _).bind fun os =>
      keeps_settle hview built os
  cases file with
  | none => exact (keeps_pure _).bind hbuild
  | some path => exact (keeps_readSettingsFile hview path).bind hbuild

section

variable (hview : Session.Blind view)
include hview

theorem keeps_reloadSettings (file : Option Path) : Keeps view (reloadSettings file) := by
  rw [reloadSettings_eq]
  refine (keeps_prepareSettings hview.toBlindAside file).bind fun settings => ?_
  exact (keeps_modify fun s => hview.settings s _).bind fun _ => keeps_pure settings

theorem keeps_loadSettings (path : Option Path) : Keeps view (loadSettings path) := by
  refine keeps_get.bind fun s => ?_
  match path, s.settings with
  | some path, _ => exact keeps_reloadSettings hview (some path)
  | none, some settings => exact keeps_pure settings
  | none, none =>
      exact (keeps_findSettingsFile none).bind fun file => keeps_reloadSettings hview file

end

end Run

end ImportAudit
