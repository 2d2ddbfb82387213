/-
# ImportAudit.Proofs.Problem.Delivery — problems are delivered whatever listeners do.

A report calls the registered listeners one after the other, and any of the calls may fail.  Here
the calls are made one by one, with faults that are caught behind each of them (`tell`, `deliver`);
what a whole report comes to is `Handler.report`, whichever calls fail (`deliver_run`), and one log
record for each that does.  A step is a registration, its withdrawal or a report (`perform_run`),
and of any number of steps `performAll_delivers` says who is registered behind them, how often each
category was reported, and what the next step does.
-/
import ImportAudit.Problem.Handler
import ImportAudit.Proofs.Session.Steps
import Mathlib.Data.List.Induction

namespace ImportAudit

/-- A handler, and what was logged of its problems. -/
structure Delivery where
  handler : Handler
  log : List Log.Record := []

/-- How calls of listeners end: a call that so many others were made before may fail. -/
abbrev Conduct := Nat → Listener → Problem → Option Fault

/-- Each listener fails at all calls or at none. -/
def Conduct.constant : Conduct := fun _ l _ => l.failure

/-- Work on a delivery that may end in a fault. -/
abbrev Delivering := ExceptT Fault (StateM Delivery)

namespace Delivery

/-! ## One report, call by call -/

/-- Logs a text. -/
def write (clock : Log.Clock) (severity : Log.Severity) (text : String) : Delivering Unit :=
  modify fun d => { d with log := d.log ++ [⟨clock, severity, d.handler.logger, text, []⟩] }

/-- Calls a listener: it hears the problem, and then it may fail. -/
def call (conduct : Conduct) (p : Problem) (l : Listener) : Delivering Unit := do
  let d ← get
  set { d with handler := { d.handler with heard := d.handler.heard ++ [(l.name, p)] } }
  match conduct d.handler.heard.length l p with
  | some f => throw f
  | none => pure ()

/-- Calls a listener, and logs the fault if it fails. -/
def tell (conduct : Conduct) (clock : Log.Clock) (p : Problem) (l : Listener) : Delivering Unit :=
  tryCatch (call conduct p l) fun f => write clock .error (Handler.failureNote f)

/-- Calls listeners one after the other. -/
def tellAll (conduct : Conduct) (clock : Log.Clock) (p : Problem) : List Listener → Delivering Unit
  | [] => pure ()
  | l :: ls => do
    tell conduct clock p l
    tellAll conduct clock p ls

/-- Counts a problem, logs it, and calls the listeners that are registered. -/
def deliver (conduct : Conduct) (clock : Log.Clock) (p : Problem) : Delivering Problem := do
  modify fun d => { d with
    handler := { d.handler with
      counts := Handler.tally p.category d.handler.counts
      problems := d.handler.problems ++ [p] } }
  write clock .warning (Handler.note p)
  tellAll conduct clock p (← get).handler.listeners
  pure p

/-! ## Steps -/

/-- What may be asked of a handler. -/
inductive Step
  | add (l : Listener)
  | remove (name : String)
  | report (clock : Log.Clock) (p : Problem)

/-- The problem that a step reports, if it does. -/
def Step.problem? : Step → Option Problem
  | .report _ p => some p
  | _ => none

/-- Takes a step, and returns the problem that it reports. -/
def perform (conduct : Conduct) : Step → Delivering (Option Problem)
  | .add l => do
    modify fun d => { d with handler := d.handler.add l }
    pure none
  | .remove name => do
    modify fun d => { d with handler := d.handler.remove name }
    pure none
  | .report clock p => some <$> deliver conduct clock p

/-- Takes steps one after the other. -/
def performAll (conduct : Conduct) : List Step → Delivering (List (Option Problem))
  | [] => pure []
  | s :: ss => do
    let p? ← perform conduct s
    let ps ← performAll conduct ss
    pure (p? :: ps)

/-! ## What has to come of steps -/

/-- Who is registered behind steps: a listener that is added comes last, and one that is removed
leaves the first of its places. -/
def registered (steps : List Step) : List Listener :=
  steps.foldl
    (fun ls s => match s with
      | .add l => ls ++ [l]
      | .remove name => ls.eraseP fun l => l.name = name
      | .report _ _ => ls) []

/-- How many of the steps report a problem of a category. -/
def reports (c : Category) (steps : List Step) : Nat :=
  steps.countP fun s => s.problem?.any fun p => p.category = c

/-- Who hears what at a step: every listener of the problem, as often as it is registered. -/
def audience (ls : List Listener) : Step → List (String × Problem)
  | .report _ p => ls.map fun l => (l.name, p)
  | _ => []

/-- The faults of calls that are made one after the other, behind `n` others. -/
def failures (conduct : Conduct) (p : Problem) : Nat → List Listener → List Fault
  | _, [] => []
  | n, l :: ls => (conduct n l p).toList ++ failures conduct p (n + 1) ls

/-- The error records of faults. -/
def errors (logger : String) (clock : Log.Clock) (faults : List Fault) : List Log.Record :=
  faults.map fun f => ⟨clock, .error, logger, Handler.failureNote f, []⟩

/-- What is logged at a step behind `n` calls: a warning of the problem, and an error for each call
that fails. -/
def logged (conduct : Conduct) (logger : String) (n : Nat) (ls : List Listener) :
    Step → List Log.Record
  | .report clock p =>
    ⟨clock, .warning, logger, Handler.note p, []⟩ ::
      errors logger clock (failures conduct p n ls)
  | _ => []

/-- What a step makes of a handler. -/
def Step.change (h : Handler) : Step → Handler
  | .add l => h.add l
  | .remove name => h.remove name
  | .report _ p => h.report p

/-- The delivery behind a step. -/
def after (conduct : Conduct) (d : Delivery) (s : Step) : Delivery where
  handler := s.change d.handler
  log := d.log ++
    logged conduct d.handler.logger d.handler.heard.length d.handler.listeners s

/-! ## Running the calls -/

section Running

variable (conduct : Conduct) (clock : Log.Clock) (p : Problem)

/-- A listener has heard the problem also where its call fails. -/
theorem call_run (l : Listener) (d : Delivery) :
    (call conduct p l).run d =
      (match conduct d.handler.heard.length l p with
        | some f => .error f
        | none => .ok (),
        { d with handler := { d.handler with heard := d.handler.heard ++ [(l.name, p)] } }) := by
  unfold call
  rw [Run.run_bind_of_ok (Run.run_get d)]
  cases h : conduct d.handler.heard.length l p with
  | none =>
      simp only
      rfl
  | some f =>
      simp only
      rfl

/-- A call that fails is logged, and the work goes on. -/
theorem tell_run (l : Listener) (d : Delivery) :
    (tell conduct clock p l).run d =
      (.ok (), { handler := { d.handler with heard := d.handler.heard ++ [(l.name, p)] }
                 log := d.log ++ errors d.handler.logger clock
                   (conduct d.handler.heard.length l p).toList }) := by
  unfold tell
  rw [Run.run_tryCatch, call_run]
  cases conduct d.handler.heard.length l p with
  | none => simp [errors]
  | some f => rfl

/-- All listeners hear the problem in their order, whichever of them fail: by induction on the
listeners that are left, from any delivery. -/
theorem tellAll_run (ls : List Listener) (d : Delivery) :
    (tellAll conduct clock p ls).run d =
      (.ok (), { handler := { d.handler with
                   heard := d.handler.heard ++ ls.map fun l => (l.name, p) }
                 log := d.log ++ errors d.handler.logger clock
                   (failures conduct p d.handler.heard.length ls) }) := by
  induction ls generalizing d with
  | nil => simp [tellAll, failures, errors]
  | cons l ls ih =>
      rw [tellAll, Run.run_bind_of_ok (tell_run conduct clock p l d), ih]
      simp [failures, errors, List.append_assoc]

/-- A report always returns its problem.  The handler is then the one after the report, whichever
calls failed. -/
theorem deliver_run (d : Delivery) :
    (deliver conduct clock p).run d = (.ok p, after conduct d (.report clock p)) := by
  unfold deliver
  rw [Run.run_bind_of_ok (Run.run_modify _ d), write,
    Run.run_bind_of_ok (Run.run_modify _ _), Run.run_bind_of_ok (Run.run_get _),
    Run.run_bind_of_ok (tellAll_run conduct clock p _ _)]
  simp [after, logged, Step.change, Handler.report, List.append_assoc]

theorem perform_run (s : Step) (d : Delivery) :
    (perform conduct s).run d = (.ok s.problem?, after conduct d s) := by
  cases s with
  | add l =>
      rw [perform, Run.run_bind_of_ok (Run.run_modify _ d), Run.run_pure]
      simp [after, logged, Step.change, Step.problem?]
  | remove name =>
      rw [perform, Run.run_bind_of_ok (Run.run_modify _ d), Run.run_pure]
      simp [after, logged, Step.change, Step.problem?]
  | report clock p =>
      rw [perform, map_eq_pure_bind, Run.run_bind_of_ok (deliver_run conduct clock p d)]
      rfl

theorem performAll_run (steps : List Step) (d : Delivery) :
    (performAll conduct steps).run d =
      (.ok (steps.map Step.problem?), steps.foldl (after conduct) d) := by
  induction steps generalizing d with
  | nil => rfl
  | cons s ss ih =>
      rw [performAll, Run.run_bind_of_ok (perform_run conduct s d), Run.run_bind_of_ok (ih _)]
      rfl

end Running

/-! ## Behind any number of steps -/

theorem removeFirst_eq_eraseP (name : String) (ls : List Listener) :
    Handler.removeFirst name ls = ls.eraseP fun l => l.name = name := by
  induction ls with
  | nil => rfl
  | cons l ls ih =>
      rw [Handler.removeFirst, List.eraseP_cons, ih]
      by_cases h : l.name = name <;> simp [h]

theorem lookup_cons_eq_ite (c d : Category) (n : Nat) (counts : List (Category × Nat)) :
    ((c, n) :: counts).lookup d = if d = c then some n else counts.lookup d := by
  rw [List.lookup_cons]
  by_cases h : d = c
  · rw [if_pos h, beq_iff_eq.mpr h]
  · rw [if_neg h, beq_false_of_ne h]

theorem lookup_tally (c d : Category) (counts : List (Category × Nat)) :
    (Handler.tally c counts).lookup d =
      if d = c then some ((counts.lookup d).getD 0 + 1) else counts.lookup d := by
  induction counts with
  | nil => rw [Handler.tally, lookup_cons_eq_ite, List.lookup_nil, Option.getD_none]
  | cons e es ih =>
      obtain ⟨k, n⟩ := e
      rw [Handler.tally, lookup_cons_eq_ite]
      by_cases hk : k = c
      · rw [if_pos hk, lookup_cons_eq_ite, hk]
        by_cases hd : d = c <;> simp [hd]
      · rw [if_neg hk, lookup_cons_eq_ite, ih]
        by_cases hd : d = k
        · have hdc : d ≠ c := fun h => hk (hd.symm.trans h)
          rw [if_pos hd, if_neg hdc, if_pos hd]
        · simp only [if_neg hd]

/-- The handler is the one of the steps alone: the calls leave no other trace on it. -/
theorem handler_foldl (conduct : Conduct) (steps : List Step) (d : Delivery) :
    (steps.foldl (after conduct) d).handler = steps.foldl Step.change d.handler := by
  induction steps generalizing d with
  | nil => rfl
  | cons s ss ih => exact ih (after conduct d s)

theorem logger_foldl (steps : List Step) (h : Handler) :
    (steps.foldl Step.change h).logger = h.logger := by
  induction steps generalizing h with
  | nil => rfl
  | cons s ss ih =>
      rw [List.foldl_cons, ih]
      cases s <;> rfl

/-- By induction from the last step, which is made of who is registered before it. -/
theorem listeners_foldl (logger : String) (steps : List Step) :
    (steps.foldl Step.change { logger }).listeners = registered steps := by
  induction steps using List.reverseRecOn with
  | nil => rfl
  | append_singleton steps s ih =>
      rw [List.foldl_append, registered, List.foldl_append, ← registered, ← ih]
      simp only [List.foldl_cons, List.foldl_nil]
      cases s with
      | add l => rfl
      | remove name => exact removeFirst_eq_eraseP name _
      | report clock p => rfl

theorem counts_foldl (logger : String) (steps : List Step) (c : Category) :
    (steps.foldl Step.change { logger }).counts.lookup c =
      if reports c steps = 0 then none else some (reports c steps) := by
  induction steps using List.reverseRecOn with
  | nil => rfl
  | append_singleton steps s ih =>
      rw [List.foldl_append, reports, List.countP_append, ← reports]
      simp only [List.foldl_cons, List.foldl_nil]
      cases s with
      | add l => exact ih
      | remove name => exact ih
      | report clock p =>
          have hcounts :
              (Step.change (steps.foldl Step.change { logger }) (.report clock p)).counts =
                Handler.tally p.category (steps.foldl Step.change { logger }).counts := rfl
          rw [hcounts, lookup_tally, ih]
          by_cases hc : p.category = c
          · by_cases hn : reports c steps = 0 <;> simp [Step.problem?, hc, hn]
          · have hc' : c ≠ p.category := fun h => hc h.symm
            simp [Step.problem?, hc, hc']

/-- Listeners that fail at all calls or at none make one error record each. -/
theorem failures_constant (p : Problem) (n : Nat) (ls : List Listener) :
    failures .constant p n ls = ls.filterMap Listener.failure := by
  induction ls generalizing n with
  | nil => rfl
  | cons l ls ih =>
      rw [failures, ih, List.filterMap_cons, Conduct.constant]
      cases l.failure <;> rfl

theorem logged_constant (h : Handler) (n : Nat) (clock : Log.Clock) (p : Problem) :
    logged .constant h.logger n h.listeners (.report clock p) = h.records clock p := by
  rw [logged, failures_constant, errors, List.map_filterMap]
  rfl

/-- Behind any number of steps on a new handler, whichever calls of listeners fail:

* every report has returned its problem, and nothing has raised a fault;
* the handler is the one of the steps, those are registered that were added and not removed, and the
  counts are those of the reports by category;
* at the next step all who are registered hear the problem that is returned, if there is one, in
  their order and as often as they are registered, and a warning is logged for the problem and then
  an error for each call that fails;
* to remove who is not registered changes nothing;
* listeners that always fail or never do make the records of the handler. -/
theorem performAll_delivers (conduct : Conduct) (logger : String) (past : List Step) :
    ∃ d : Delivery,
      (performAll conduct past).run { handler := { logger } } =
        (.ok (past.map Step.problem?), d) ∧
      d.handler = past.foldl Step.change { logger } ∧
      d.handler.listeners = registered past ∧
      (∀ c, d.handler.counts.lookup c =
        if reports c past = 0 then none else some (reports c past)) ∧
      (∀ s : Step, ∃ d', (perform conduct s).run d = (.ok s.problem?, d') ∧
        d'.handler.heard = d.handler.heard ++ audience (registered past) s ∧
        d'.log = d.log ++
          logged conduct logger d.handler.heard.length (registered past) s) ∧
      (∀ name, (∀ l ∈ registered past, l.name ≠ name) →
        (perform conduct (.remove name)).run d = (.ok none, d)) ∧
      ∀ clock p, (perform .constant (.report clock p)).run d =
        (.ok (some p), ⟨d.handler.report p, d.log ++ d.handler.records clock p⟩) := by
  let d := past.foldl (after conduct) { handler := { logger } }
  have hhandler : d.handler = past.foldl Step.change { logger } := handler_foldl conduct past _
  have hlisteners : d.handler.listeners = registered past := by
    rw [hhandler]
    exact listeners_foldl logger past
  have hlogger : d.handler.logger = logger := by
    rw [hhandler]
    exact logger_foldl past _
  refine ⟨d, performAll_run conduct past _, hhandler, hlisteners, ?_, ?_, ?_, ?_⟩
  · intro c
    rw [hhandler]
    exact counts_foldl logger past c
  · intro s
    refine ⟨after conduct d s, perform_run conduct s d, ?_, ?_⟩
    · rw [← hlisteners]
      cases s with
      | add l => exact (List.append_nil _).symm
      | remove name => exact (List.append_nil _).symm
      | report clock p => rfl
    · rw [← hlisteners, ← hlogger]
      rfl
  · intro name hname
    have hlast : Handler.removeFirst name d.handler.listeners = d.handler.listeners := by
      rw [removeFirst_eq_eraseP, hlisteners]
      apply List.eraseP_of_forall_not
      intro l hl
      simpa using hname l hl
    rw [perform_run]
    simp [after, Step.change, Step.problem?, logged, Handler.remove, hlast]
  · intro clock p
    rw [perform_run, after, logged_constant]
    rfl

end Delivery

end ImportAudit
