/-
# ImportAudit.Proofs.Session.Disregard — runs that disregard the settings that are kept.

The settings that a session keeps and its environment matter where settings are loaded, and nowhere
else.  A run disregards them if with others in their place it ends in the same way and does the same
to the rest of the session.  Disregarding is closed under the combinators of runs, and checking files
(`disregards_check`) and printing disregard them.
-/
import ImportAudit.Proofs.Analysis.Verdict
import ImportAudit.Proofs.Session.Steps
import ImportAudit.Session.Check

namespace ImportAudit

/-- The session with other settings kept, and with another environment. -/
def Session.besides (s : Session) (kept : Option Settings) (env : Environment) : Session :=
  { s with settings := kept, environment := env }

namespace Run

variable {α β : Type}

/-- The run neither looks at the settings that are kept and the environment, nor changes them. -/
def Disregards (x : Run α) : Prop :=
  ∀ s kept env, x.run (s.besides kept env) = ((x.run s).1, (x.run s).2.besides kept env)

/-! ## Combinators -/

theorem disregards_pure (a : α) : Disregards (pure a : Run α) := fun _ _ _ => rfl

theorem disregards_throw (f : Fault) : Disregards (throw f : Run α) := fun _ _ _ => rfl

theorem disregards_ofExcept (r : Except Fault α) : Disregards (ofExcept r) := by
  cases r with
  | ok a => exact disregards_pure a
  | error f => exact disregards_throw f

theorem disregards_modify {change : Session → Session}
    (h : ∀ s kept env, change (s.besides kept env) = (change s).besides kept env) :
    Disregards (modify change : Run Unit) :=
  fun s kept env => congrArg (Prod.mk (Except.ok ())) (h s kept env)

theorem Disregards.bind {x : Run α} {f : α → Run β} (hx : Disregards x)
    (hf : ∀ a, Disregards (f a)) : Disregards (x >>= f) := by
  intro s kept env
  rw [run_bind, run_bind, hx]
  match x.run s with
  | (.ok a, t) => exact hf a t kept env
  | (.error e, t) => rfl

theorem Disregards.map {x : Run α} (hx : Disregards x) (f : α → β) : Disregards (f <$> x) := by
  rw [map_eq_pure_bind]
  exact hx.bind fun a => disregards_pure (f a)

theorem Disregards.tryCatch {x : Run α} {f : Fault → Run α} (hx : Disregards x)
    (hf : ∀ e, Disregards (f e)) : Disregards (tryCatch x f) := by
  intro s kept env
  rw [run_tryCatch, run_tryCatch, hx]
  match x.run s with
  | (.ok a, t) => rfl
  | (.error e, t) => exact hf e t kept env

/-- The rest of the session may be read. -/
theorem disregards_get_bind {f : Session → Run α}
    (hread : ∀ s kept env, f (s.besides kept env) = f s) (hf : ∀ s, Disregards (f s)) :
    Disregards (get >>= f) := by
  intro s kept env
  rw [run_get_bind, run_get_bind, hread]
  exact hf s s kept env

theorem disregards_forM {f : α → Run Unit} (hf : ∀ a, Disregards (f a)) (xs : List α) :
    Disregards (forM xs f : Run Unit) := by
  induction xs with
  | nil => exact disregards_pure ()
  | cons x xs ih =>
      rw [List.forM_cons]
      exact (hf x).bind fun _ => ih

theorem Disregards.andAfterwards {x : Run α} {change : Session → Session} (hx : Disregards x)
    (h : ∀ s kept env, change (s.besides kept env) = (change s).besides kept env) :
    Disregards (andAfterwards x change) := by
  intro s kept env
  show ((x.run (s.besides kept env)).1, change (x.run (s.besides kept env)).2) = _
  rw [hx, h]
  rfl

/-! ## Printing and reporting -/

theorem disregards_echo (text : String) : Disregards (echo text) :=
  disregards_modify fun _ _ _ => rfl

theorem disregards_complain (text : String) : Disregards (complain text) :=
  disregards_modify fun _ _ _ => rfl

theorem disregards_print (blocks : List (Except Fault String)) : Disregards (print blocks) := by
  refine (disregards_modify fun _ _ _ => rfl).bind fun _ => ?_
  split
  · exact disregards_pure ()
  · exact disregards_throw _

theorem disregards_warnAt (width : Nat) (text : String) : Disregards (warnAt width text) :=
  (disregards_ofExcept _).bind fun _ => disregards_modify fun _ _ _ => rfl

theorem disregards_trace (lines : List String) : Disregards (trace lines) :=
  disregards_modify fun _ _ _ => rfl

theorem disregards_traceWith (step : Log.Loggers → Log.Clock → Log.Loggers × List String) :
    Disregards (traceWith step) := disregards_modify fun _ _ _ => rfl

theorem disregards_reportAny (p : Option Problem) : Disregards (reportAny p) := by
  cases p with
  | none => exact disregards_pure ()
  | some p => exact disregards_modify fun _ _ _ => rfl

/-! ## Checking files -/

theorem disregards_allowedPackages (file : String) (o : RuleOptions) :
    Disregards (allowedPackages file o) := by
  refine disregards_get_bind (fun _ _ _ => rfl) fun s => ?_
  refine (disregards_ofExcept _).bind fun c => (disregards_reportAny c.problem).bind fun _ => ?_
  exact (disregards_trace _).bind fun _ => disregards_pure c.allowed

theorem disregards_noteFinding (f : Finding) : Disregards (noteFinding f) :=
  disregards_get_bind (fun _ _ _ => rfl) fun _ => disregards_trace _

section

variable {resolver : Resolver Run} (h : ∀ file o, Disregards (resolver file o))
include h

theorem disregards_findings (file : SourceFile) (o : RuleOptions) :
    Disregards (file.findings o resolver noteFinding) := by
  unfold SourceFile.findings
  rw [StateT.run'_eq, Analysis.collect_run_unsettled resolver noteFinding rfl]
  apply Disregards.map
  split
  · refine (h file.fileName o).bind fun names => ?_
    exact (disregards_forM disregards_noteFinding _).bind fun _ => disregards_pure _
  · exact disregards_pure _

theorem disregards_checkWith (file : SourceFile) (o : RuleOptions) :
    Disregards (checkWith resolver file o) := by
  refine (disregards_traceWith _).bind fun _ => ?_
  refine (disregards_findings h file o).bind fun findings => ?_
  exact (disregards_traceWith _).bind fun _ => disregards_pure findings

end

section

variable {rule : Rule} (h : ∀ file o, Disregards (rule.resolver file o))
include h

theorem disregards_outcome (path : Path) : Disregards (outcome rule path) := by
  refine Disregards.tryCatch (Disregards.map ?_ _) fun f => ?_
  · refine disregards_get_bind (fun _ _ _ => rfl) fun s => (disregards_ofExcept _).bind ?_
    exact fun file => disregards_checkWith h file rule.options
  · split
    · exact disregards_pure _
    · exact disregards_throw f

theorem disregards_checkEach (paths : List Path) :
    ∀ r : CheckResult, Disregards (checkEach rule r paths) := by
  induction paths with
  | nil => exact fun r => disregards_pure r
  | cons p ps ih => exact fun r => (disregards_outcome h p).bind fun found => ih (addOutcome r found)

theorem disregards_checkAll (paths : List Path) : Disregards (checkAll rule paths) := by
  refine disregards_get_bind (fun _ _ _ => rfl) fun s => ?_
  refine (disregards_modify fun _ _ _ => rfl).bind fun _ => Disregards.bind ?_ fun r => ?_
  · exact (disregards_checkEach h paths {}).andAfterwards fun _ _ _ => rfl
  · exact disregards_get_bind (fun _ _ _ => rfl) fun _ => disregards_pure _

end

theorem disregards_check (paths : List Path) (o : RuleOptions) : Disregards (check paths o) := by
  unfold check
  refine disregards_checkAll ?_ paths
  intro file o
  exact disregards_allowedPackages file o

end Run

end ImportAudit
