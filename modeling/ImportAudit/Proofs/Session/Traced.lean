/-
# ImportAudit.Proofs.Session.Traced — what the log says of the checks of files.

The check of a file writes a record when it begins, one for each finding, and one when it ends, and
each of them names the file (`Trace.names_file`).  In between the resolver may write to the log too; it
is asked at most once, and before there is anything to tell of a finding.  When the check is over, no
logger knows of the file any more (`checkWith_traced`), so files that are checked one after the other
leave their traces one behind the other (`checkSources_traced`).
-/
import ImportAudit.Proofs.Analysis.Findings
import ImportAudit.Proofs.Session.Locality

namespace ImportAudit

/-! ## Records that are written -/

namespace Log

/-- The lines of the records that the logger lets through. -/
def Logger.written (l : Logger) (rs : List Record) : List String :=
  (rs.filter fun r => l.admits r.severity).map l.lineFor

/-- What a record says under a name where it is written with all its fields. -/
def Record.fieldOf (r : Record) (name : String) : Option Value := r.members.lookup name

theorem Logger.written_append (l : Logger) (rs rs' : List Record) :
    l.written (rs ++ rs') = l.written rs ++ l.written rs' := by
  unfold written
  rw [List.filter_append, List.map_append]

/-- An event with words is written as a record. -/
theorem Logger.emit_eq_written (l : Logger) (clock : Clock) (s : Severity) (event : String)
    (fields : List (String × Value)) (h : fields.any (fun f => f.1 = wordless) = false) :
    l.emit clock s event fields =
      l.written [⟨clock, s, l.component, event, l.fieldsFor event fields⟩] := by
  unfold emit written
  rw [h, Bool.or_false]
  cases hadmits : l.admits s <;> simp [hadmits]

/-- A logger with a threshold of its own lets those records through that are as severe at least. -/
theorem Logger.written_of_threshold {l : Logger} {level : Severity}
    (h : l.threshold = some level) (rs : List Record) :
    l.written rs = (rs.filter fun r => level.rank ≤ r.severity.rank).map l.lineFor := by
  unfold written admits
  rw [h]
  rfl

/-- A logger lets everything through whose threshold is the least severity. -/
theorem Logger.written_of_debug {l : Logger} (h : l.threshold = some .debug)
    (rs : List Record) : l.written rs = rs.map l.lineFor := by
  have hall : ∀ r ∈ rs, decide (Severity.debug.rank ≤ r.severity.rank) = true := by
    intro r _
    cases r.severity <;> rfl
  rw [Logger.written_of_threshold h, List.filter_eq_self.mpr hall]

end Log

/-! ## The trace of a check -/

/-- What the check of a file leaves in the log: when it began and ended, what was found, and what the
resolver has written. -/
structure Trace where
  file : SourceFile
  began : Log.Clock
  ended : Log.Clock
  aside : List String
  findings : List Finding

namespace Trace

/-- The context in which a file is checked. -/
def context (file : SourceFile) : List (String × Value) := [("file_path", .text file.fileName)]

/-- The record of the beginning. -/
def startRecord (component : String) (clock : Log.Clock) (file : SourceFile) : Log.Record :=
  ⟨clock, .debug, component, "check_started",
    ("event_type", .text "check_started") :: context file⟩

/-- The record of a finding. -/
def findingRecord (component : String) (clock : Log.Clock) (file : SourceFile) (f : Finding) :
    Log.Record :=
  ⟨clock, .debug, component, "implicit_dependency",
    ("event_type", .text "implicit_dependency") :: context file ++
      [("package_name", .text f.package), ("line", .int f.line), ("column", .int f.column)]⟩

/-- The record of the end, with so many findings. -/
def endRecord (component : String) (clock : Log.Clock) (file : SourceFile) (count : Nat) :
    Log.Record :=
  ⟨clock, .info, component, "check_completed",
    ("event_type", .text "check_completed") :: context file ++
      [("check_duration_ms", .int 0), ("total_findings", .int count)]⟩

/-- The records behind the beginning: one for each finding, in their order, and that of the end. -/
def laterRecords (component : String) (t : Trace) : List Log.Record :=
  t.findings.map (findingRecord component t.ended t.file) ++
    [endRecord component t.ended t.file t.findings.length]

/-- The records of the check of a file. -/
def records (component : String) (t : Trace) : List Log.Record :=
  startRecord component t.began t.file :: t.laterRecords component

/-- The lines that the check of a file leaves in the log, if the checker has the logger `l`. -/
def lines (l : Log.Logger) (t : Trace) : List String :=
  l.written [startRecord l.component t.began t.file] ++ t.aside ++
    l.written (t.laterRecords l.component)

/-- Every record of a check names the file. -/
theorem names_file (component : String) (t : Trace) :
    ∀ r ∈ t.records component, r.fieldOf "file_path" = some (.text t.file.fileName) := by
  unfold records laterRecords
  rw [List.forall_mem_cons, List.forall_mem_append, List.forall_mem_map]
  exact ⟨rfl, fun f _ => rfl, List.forall_mem_singleton.mpr rfl⟩

end Trace

namespace Run

variable {s t u : Session}

/-! ## Checking one file -/

/-- Wherever the files are those of a session, the resolver gives an answer.  It may write to the log,
but it leaves the files and the logger of the checker as they are. -/
def AnswersIn (s : Session) (resolver : Resolver Run) (file : String) (o : RuleOptions) : Prop :=
  ∀ s' : Session, s.SameFiles s' → ∃ names t aside,
    (resolver file o).run s' = (.ok names, t) ∧ s.SameFiles t ∧
    t.loggers.checker = s'.loggers.checker ∧ t.log = s'.log ++ aside

theorem AnswersIn.of_sameFiles {resolver : Resolver Run} {file : String} {o : RuleOptions}
    (h : AnswersIn s resolver file o) (hsame : s.SameFiles t) : AnswersIn t resolver file o := by
  intro s' hs'
  obtain ⟨names, u, aside, hrun, hu, hkept, hlog⟩ := h s' (hsame.trans hs')
  exact ⟨names, u, aside, hrun, hsame.symm.trans hu, hkept, hlog⟩

/-- The resolver was asked in the context of a file, and this is what it has written. -/
def WrittenBy (resolver : Resolver Run) (file : SourceFile) (o : RuleOptions)
    (aside : List String) : Prop :=
  ∃ s names t, s.loggers.checker.context = Trace.context file ∧
    s.loggers.manifest.context = Trace.context file ∧
    (resolver file.fileName o).run s = (.ok names, t) ∧ t.log = s.log ++ aside

/-- A check begins with the context of its file. -/
theorem context_begun {file : SourceFile} (hname : file.fileName ≠ "") (s : Session) :
    (begun file s).loggers.checker.context = Trace.context file ∧
      (begun file s).loggers.manifest.context = Trace.context file := by
  have hcontext : Log.Logger.contextOf (.text file.fileName) .null = Trace.context file := by
    simp [Log.Logger.contextOf, Trace.context, Value.truthy, hname]
  exact ⟨hcontext, hcontext⟩

/-- A check begins with a record. -/
theorem log_begun {file : SourceFile} (hname : file.fileName ≠ "") (s : Session) :
    (begun file s).log = s.log ++ s.loggers.checker.written
      [Trace.startRecord s.loggers.checker.component s.clock file] := by
  have hfields : (begun file s).loggers.checker.fieldsFor "check_started" [] =
      ("event_type", .text "check_started") :: Trace.context file := by
    unfold Log.Logger.fieldsFor
    rw [(context_begun hname s).1]
    rfl
  have hemit := (begun file s).loggers.checker.emit_eq_written s.clock .debug "check_started"
    [] rfl
  rw [hfields] at hemit
  exact congrArg (s.log ++ ·) hemit

/-- A check ends with a record, and without any context. -/
theorem run_checkCompleted {file : SourceFile}
    (hcontext : s.loggers.checker.context = Trace.context file) (count : Nat) :
    (traceWith fun ls clock => ls.checkCompleted clock (.text file.fileName) (.int 0)
        (.int count)).run s =
      (.ok (), { s with
        loggers := s.loggers.both (·.cleared)
        log := s.log ++ s.loggers.checker.written
          [Trace.endRecord s.loggers.checker.component s.clock file count] }) := by
  have hfields : s.loggers.checker.fieldsFor "check_completed"
      [("file_path", .text file.fileName), ("check_duration_ms", .int 0),
        ("total_findings", .int count)] =
      (Trace.endRecord s.loggers.checker.component s.clock file count).fields := by
    unfold Log.Logger.fieldsFor
    rw [hcontext]
    rfl
  have hemit := s.loggers.checker.emit_eq_written s.clock .info "check_completed"
    [("file_path", .text file.fileName), ("check_duration_ms", .int 0),
      ("total_findings", .int count)] rfl
  rw [hfields] at hemit
  exact congrArg (fun lines => (Except.ok (), { s with
    loggers := s.loggers.both (·.cleared)
    log := s.log ++ lines })) hemit

/-- In the context of a file, findings are logged one after the other. -/
theorem run_noteFindings (file : SourceFile) (findings : List Finding) :
    ∀ {s : Session}, s.loggers.checker.context = Trace.context file →
      (forM findings noteFinding : Run Unit).run s =
        (.ok (), { s with
          log := s.log ++ s.loggers.checker.written
            (findings.map (Trace.findingRecord s.loggers.checker.component s.clock file)) }) := by
  induction findings with
  | nil =>
      intro s _
      simp [Log.Logger.written]
  | cons f rest ih =>
      intro s hcontext
      have hf : (noteFinding f).run s =
          (.ok (), { s with
            log := s.log ++ s.loggers.checker.written
              [Trace.findingRecord s.loggers.checker.component s.clock file f] }) := by
        have hfields : s.loggers.checker.fieldsFor "implicit_dependency"
            [("package_name", .text f.package), ("line", .int f.line), ("column", .int f.column)] =
            (Trace.findingRecord s.loggers.checker.component s.clock file f).fields := by
          unfold Log.Logger.fieldsFor
          rw [hcontext]
          rfl
        have hemit := s.loggers.checker.emit_eq_written s.clock .debug "implicit_dependency"
          [("package_name", .text f.package), ("line", .int f.line), ("column", .int f.column)] rfl
        rw [hfields] at hemit
        unfold noteFinding
        rw [run_get_bind, Log.Loggers.packageFound, hemit]
        rfl
      rw [List.forM_cons, run_bind_of_ok hf, ih (by exact hcontext)]
      simp only [List.map_cons, List.append_assoc]
      rw [← Log.Logger.written_append]
      rfl

/-- In the context of a file, the resolver writes first, and then the findings are logged. -/
theorem findings_traced {resolver : Resolver Run} {file : SourceFile} {o : RuleOptions}
    (hchecker : s.loggers.checker.context = Trace.context file)
    (hmanifest : s.loggers.manifest.context = Trace.context file)
    (hanswers : AnswersIn s resolver file.fileName o) :
    ∃ findings u aside, (file.findings o resolver noteFinding).run s = (.ok findings, u) ∧
      s.SameFiles u ∧ u.loggers.checker = s.loggers.checker ∧
      u.log = s.log ++ aside ++ s.loggers.checker.written
        (findings.map (Trace.findingRecord s.loggers.checker.component u.clock file)) ∧
      (aside = [] ∨ WrittenBy resolver file o aside) := by
  unfold SourceFile.findings
  rw [StateT.run'_eq, Analysis.collect_run_unsettled resolver noteFinding rfl]
  split
  · obtain ⟨names, t, aside, hrun, hsame, hkept, hlog⟩ := hanswers s (.refl s)
    have hnotes := run_noteFindings file
      (file.allReferences.filterMap (Analysis.verdict (.ofFile file o) names))
      (s := t) (by rw [hkept, hchecker])
    rw [map_bind, run_bind_of_ok hrun, map_bind, run_bind_of_ok hnotes]
    refine ⟨_, _, aside, rfl, ⟨hsame.files, hsame.workingDir⟩, hkept, ?_, .inr ?_⟩
    · show t.log ++ _ = _
      rw [hkept, hlog]
    · exact ⟨s, names, t, hchecker, hmanifest, hrun, hlog⟩
  · refine ⟨[], s, [], rfl, .refl s, rfl, ?_, .inl rfl⟩
    simp [Log.Logger.written]

/-- The check of a file leaves its trace in the log, and clears the contexts of the loggers. -/
theorem checkWith_traced {resolver : Resolver Run} {file : SourceFile} {o : RuleOptions}
    (hname : file.fileName ≠ "") (hanswers : AnswersIn s resolver file.fileName o) :
    ∃ (trace : Trace) (u : Session), (checkWith resolver file o).run s = (.ok trace.findings, u) ∧
      s.SameFiles u ∧ u.loggers.checker = s.loggers.checker.cleared ∧
      u.loggers.manifest.context = [] ∧ u.log = s.log ++ trace.lines s.loggers.checker ∧
      trace.file = file ∧ (trace.aside = [] ∨ WrittenBy resolver file o trace.aside) := by
  obtain ⟨hchecker, hmanifest⟩ := context_begun hname s
  have hbegin : (traceWith fun ls clock =>
      ls.checkStarted clock (.text file.fileName) .null).run s = (.ok (), begun file s) := rfl
  obtain ⟨findings, v, aside, hrun, hsame, hkept, hlog, haside⟩ :=
    findings_traced hchecker hmanifest (hanswers.of_sameFiles (t := begun file s) ⟨rfl, rfl⟩)
  let ended : Session :=
    { v with
      loggers := v.loggers.both (·.cleared)
      log := v.log ++ v.loggers.checker.written
        [Trace.endRecord v.loggers.checker.component v.clock file findings.length] }
  have hend : (traceWith fun ls clock => ls.checkCompleted clock (.text file.fileName) (.int 0)
      (.int findings.length)).run v = (.ok (), ended) :=
    run_checkCompleted (by rw [hkept, hchecker]) findings.length
  refine ⟨⟨file, s.clock, v.clock, aside, findings⟩, ended, ?_, ⟨hsame.files, hsame.workingDir⟩,
    ?_, rfl, ?_, rfl, haside⟩
  · unfold checkWith
    rw [run_bind_of_ok hbegin, run_bind_of_ok hrun, run_bind_of_ok hend]
    rfl
  · show v.loggers.checker.cleared = s.loggers.checker.cleared
    rw [hkept]
    rfl
  · show v.log ++ _ = _
    rw [hlog, log_begun hname, hkept]
    unfold Trace.lines Trace.laterRecords
    rw [Log.Logger.written_append]
    simp only [List.append_assoc]
    rfl

/-! ## What the resolver writes -/

/-- The manifest that was consulted is told of in a record that names the file that is checked. -/
theorem manifestResolved_eq_written (ls : Log.Loggers) (clock : Log.Clock)
    (path sections count : Value) :
    ∃ r, ls.manifestResolved clock path sections count = ls.manifest.written [r] ∧
      ∀ file, ls.manifest.context = Trace.context file →
        r.fieldOf "file_path" = some (.text file.fileName) := by
  have hnamed : ∀ (event : String) (fields : List (String × Value)),
      (∀ file : SourceFile, Log.Record.fieldOf
        ⟨clock, .debug, ls.manifest.component, event,
          Log.putAll (("event_type", .text event) :: Trace.context file) fields⟩ "file_path" =
          some (.text file.fileName)) →
      ∀ file, ls.manifest.context = Trace.context file →
        Log.Record.fieldOf ⟨clock, .debug, ls.manifest.component, event,
          ls.manifest.fieldsFor event fields⟩ "file_path" = some (.text file.fileName) := by
    intro event fields h file hcontext
    unfold Log.Logger.fieldsFor
    rw [hcontext]
    exact h file
  unfold Log.Loggers.manifestResolved
  split
  · exact ⟨_, Log.Logger.emit_eq_written _ _ _ _ _ rfl, hnamed _ _ fun _ => rfl⟩
  · exact ⟨_, Log.Logger.emit_eq_written _ _ _ _ _ rfl, hnamed _ _ fun _ => rfl⟩

/-- What is written where a manifest is consulted in the context of a file: the lines of a problem, if
there is one with the manifest, and a record that names the file. -/
def TellsOfManifest (file : SourceFile) (aside : List String) : Prop :=
  ∃ (reported : List String) (l : Log.Logger) (r : Log.Record),
    aside = reported ++ l.written [r] ∧ r.fieldOf "file_path" = some (.text file.fileName) ∧
    (reported = [] ∨ ∃ (h : Handler) (clock : Log.Clock) (p : Problem), reported = h.lines clock p)

/-- The manifest that a file goes by is consulted, and the log tells of it. -/
theorem allowedPackages_traced {file : String} {o : RuleOptions} {c : Manifest.Consultation}
    (h : Manifest.consult s.files s.workingDir file o = .ok c) :
    ∃ t aside, (allowedPackages file o).run s = (.ok c.allowed, t) ∧ s.SameFiles t ∧
      t.loggers = s.loggers ∧ t.log = s.log ++ aside ∧
      ∀ source, s.loggers.manifest.context = Trace.context source → TellsOfManifest source aside := by
  have hruns : ∃ path sections count, ∀ {t : Session}, (reportAny c.problem).run s = (.ok (), t) →
      (allowedPackages file o).run s = (.ok c.allowed, { t with
        log := t.log ++ s.loggers.manifestResolved s.clock path sections count }) := by
    unfold allowedPackages
    rw [run_get_bind, h]
    exact ⟨_, _, _, fun ht => run_bind_of_ok ht⟩
  obtain ⟨path, sections, count, hrun⟩ := hruns
  obtain ⟨r, hwritten, hnamed⟩ :=
    manifestResolved_eq_written s.loggers s.clock path sections count
  simp only [hwritten] at hrun
  cases hproblem : c.problem with
  | none =>
      rw [hproblem] at hrun
      refine ⟨_, s.loggers.manifest.written [r], hrun (run_pure () s), ⟨rfl, rfl⟩, rfl, rfl, ?_⟩
      exact fun source hsource => ⟨[], _, r, rfl, hnamed source hsource, .inl rfl⟩
  | some p =>
      rw [hproblem] at hrun
      refine ⟨_, s.handler.lines s.clock p ++ s.loggers.manifest.written [r], hrun rfl, ⟨rfl, rfl⟩,
        rfl, List.append_assoc _ _ _, ?_⟩
      exact fun source hsource =>
        ⟨_, _, r, rfl, hnamed source hsource, .inr ⟨_, _, p, rfl⟩⟩

/-- The resolver that consults manifests answers where the manifest of the file can be consulted. -/
theorem answersIn_allowedPackages {file : String} {o : RuleOptions} {c : Manifest.Consultation}
    (h : Manifest.consult s.files s.workingDir file o = .ok c) :
    AnswersIn s allowedPackages file o := by
  intro s' hs'
  rw [hs'.files, hs'.workingDir] at h
  obtain ⟨t, aside, hrun, hsame, hloggers, hlog, -⟩ := allowedPackages_traced h
  exact ⟨_, t, aside, hrun, hs'.trans hsame, by rw [hloggers], hlog⟩

theorem tellsOfManifest_of_writtenBy {file : SourceFile} {o : RuleOptions} {aside : List String}
    (h : WrittenBy allowedPackages file o aside) : TellsOfManifest file aside := by
  obtain ⟨s, names, t, -, hmanifest, hrun, hlog⟩ := h
  cases hconsult : Manifest.consult s.files s.workingDir file.fileName o with
  | error f =>
      unfold allowedPackages at hrun
      rw [run_get_bind, hconsult] at hrun
      cases hrun
  | ok c =>
      obtain ⟨t', aside', hrun', -, -, hlog', hconsulted⟩ := allowedPackages_traced hconsult
      rw [hrun] at hrun'
      cases hrun'
      rw [hlog] at hlog'
      rw [List.append_cancel_left hlog']
      exact hconsulted file hmanifest

/-! ## Checking one file after the other -/

/-- The findings of files that are checked one after the other, each by a rule. -/
def checkSources : List (Rule × SourceFile) → Run (List (List Finding))
  | [] => pure []
  | call :: rest => do
    let findings ← checkWith call.1.resolver call.2 call.1.options
    let more ← checkSources rest
    pure (findings :: more)

/-- The trace is that of the check of a file by a rule: the resolver has written nothing, or it was
asked in the context of the file, and if it consults manifests it has told of one. -/
structure Traces (call : Rule × SourceFile) (trace : Trace) : Prop where
  file : trace.file = call.2
  aside : trace.aside = [] ∨ WrittenBy call.1.resolver call.2 call.1.options trace.aside
  manifest : call.1.resolver = allowedPackages →
    trace.aside = [] ∨ TellsOfManifest call.2 trace.aside

/-- Let files with names be checked one after the other, by rules with resolvers that answer.  Then
the checks return, and each of them leaves its trace in the log behind those of the checks before:

* the records of its beginning, of every finding that it returns and of its end, as far as the logger
  of the checker lets them through, which is all of them if its threshold is the least, and else those
  that are as severe at least as its threshold;
* every one of these names the file that is checked;
* behind the first of them, what the resolver has written in the context of the file; where manifests
  are consulted, that is a record that names the file too, and the lines of a problem with the
  manifest if there is one;
* and when the last check is over, the contexts of both loggers are empty. -/
theorem checkSources_traced {calls : List (Rule × SourceFile)}
    (hnames : ∀ call ∈ calls, call.2.fileName ≠ "")
    (hanswers : ∀ call ∈ calls,
      AnswersIn s call.1.resolver call.2.fileName call.1.options) :
    ∃ traces u, (checkSources calls).run s = (.ok (traces.map Trace.findings), u) ∧
      u.log = s.log ++ traces.flatMap (Trace.lines s.loggers.checker) ∧
      (s.loggers.checker.threshold = some .debug → ∀ rs,
        s.loggers.checker.written rs = rs.map s.loggers.checker.lineFor) ∧
      (∀ level, s.loggers.checker.threshold = some level → ∀ rs,
        s.loggers.checker.written rs = (rs.filter fun r => level.rank ≤ r.severity.rank).map
          s.loggers.checker.lineFor) ∧
      (∀ trace ∈ traces, ∀ r ∈ trace.records s.loggers.checker.component,
        r.fieldOf "file_path" = some (.text trace.file.fileName)) ∧
      List.Forall₂ Traces calls traces ∧
      (calls ≠ [] → u.loggers.checker.context = [] ∧ u.loggers.manifest.context = []) := by
  suffices hall : ∃ traces u, (checkSources calls).run s = (.ok (traces.map Trace.findings), u) ∧
      u.log = s.log ++ traces.flatMap (Trace.lines s.loggers.checker) ∧
      List.Forall₂ Traces calls traces ∧
      (calls ≠ [] → u.loggers.checker = s.loggers.checker.cleared ∧
        u.loggers.manifest.context = []) by
    obtain ⟨traces, u, hrun, hlog, htraces, hcleared⟩ := hall
    refine ⟨traces, u, hrun, hlog, fun h rs => Log.Logger.written_of_debug h rs,
      fun _ h rs => Log.Logger.written_of_threshold h rs, fun trace _ => trace.names_file _,
      htraces, fun hcalls => ?_⟩
    obtain ⟨hchecker, hmanifest⟩ := hcleared hcalls
    exact ⟨by rw [hchecker]; rfl, hmanifest⟩
  induction calls generalizing s with
  | nil => exact ⟨[], s, rfl, (List.append_nil _).symm, .nil, fun h => absurd rfl h⟩
  | cons call rest ih =>
      rw [List.forall_mem_cons] at hnames hanswers
      obtain ⟨trace, t, hrun, hsame, hchecker, hmanifest, hlog, hfile, haside⟩ :=
        checkWith_traced hnames.1 hanswers.1
      obtain ⟨traces, u, hrest, hlogs, htraces, hcleared⟩ :=
        ih hnames.2 fun call hcall => (hanswers.2 call hcall).of_sameFiles hsame
      have htrace : Traces call trace :=
        ⟨hfile, haside, fun h => haside.imp_right fun hw => tellsOfManifest_of_writtenBy (h ▸ hw)⟩
      refine ⟨trace :: traces, u, ?_, ?_, .cons htrace htraces, fun _ => ?_⟩
      · rw [checkSources, run_bind_of_ok hrun, run_bind_of_ok hrest]
        rfl
      · -- a logger writes the same whatever its context is
        rw [hlogs, hlog, hchecker, List.flatMap_cons, List.append_assoc]
        rfl
      · cases rest with
        | nil =>
            obtain rfl : t = u := (Prod.mk.inj hrest).2
            exact ⟨hchecker, hmanifest⟩
        | cons _ _ =>
            obtain ⟨hlast, hnone⟩ := hcleared (List.cons_ne_nil _ _)
            exact ⟨by rw [hlast, hchecker]; rfl, hnone⟩

/-- A session without files that logs everything. -/
def withoutFiles : Session where
  clock := ⟨"", ""⟩
  loggers := ({} : Log.Loggers).both fun l => { l with threshold := some .debug }

/-- A file with an undeclared package, and one without any. -/
def twoSources : List (Rule × SourceFile) :=
  [({}, ⟨"a.ts", "import 'x'"⟩), ({}, ⟨"b.ts", "import './c'"⟩)]

/-- The first file leaves four records, one of which tells that there is no manifest, and the second
one two. -/
theorem checkSources_twoSources :
    ∃ traces u, (checkSources twoSources).run withoutFiles =
        (.ok (traces.map Trace.findings), u) ∧
      List.Forall₂ Traces twoSources traces ∧
      traces.map (fun trace => trace.findings.length) = [1, 0] ∧ u.log.length = 6 ∧
      u.loggers.checker.context = [] ∧ u.loggers.manifest.context = [] := by
  have hends : endsIn (checkSources twoSources) withoutFiles (fun found t =>
      decide (found.map List.length = [1, 0] ∧ t.log.length = 6)) = true := by
    decide +kernel
  have hconsult : ∀ file ∈ ["a.ts", "b.ts"], Manifest.consult withoutFiles.files
      withoutFiles.workingDir file {} = .ok ⟨none, none, []⟩ := by
    simp only [List.forall_mem_cons]
    exact ⟨rfl, rfl, List.forall_mem_nil _⟩
  have hnames : ∀ call ∈ twoSources, call.2.fileName ≠ "" := by simp [twoSources]
  have hanswers : ∀ call ∈ twoSources,
      AnswersIn withoutFiles call.1.resolver call.2.fileName call.1.options := by
    simp only [twoSources, List.forall_mem_cons]
    exact ⟨answersIn_allowedPackages (hconsult _ (by simp)),
      answersIn_allowedPackages (hconsult _ (by simp)), List.forall_mem_nil _⟩
  obtain ⟨traces, u, hrun, -, -, -, -, htraces, hcleared⟩ := checkSources_traced hnames hanswers
  have htest := test_of_endsIn hends hrun
  obtain ⟨hfound, hlog⟩ := of_decide_eq_true htest
  rw [List.map_map] at hfound
  exact ⟨traces, u, hrun, htraces, hfound, hlog, hcleared (List.cons_ne_nil _ _)⟩

end Run

end ImportAudit
