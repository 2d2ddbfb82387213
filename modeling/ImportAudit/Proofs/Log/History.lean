/-
# ImportAudit.Proofs.Log.History — what loggers write depends on what was asked of them before.

Both loggers are set up together, with the name of a level and a form; the form of one of them is
changed by itself; and events are logged in between, in the context of a check or without one.
`levelAfter`, `jsonAfter` and `contextAfter` look back over what was asked and answered.  That they
find what the loggers go by is shown for one request (`goBy_perform`) and so for any sequence of
them (`goBy_after`); what the next request comes to is read off that.
-/
import ImportAudit.Proofs.Log.Lines

namespace ImportAudit.Log

/-! ## Names of levels -/

namespace Severity

/-- The names in capitals that stand for something else than a level. -/
def misnomers : List String := ["BASIC_FORMAT", "_STYLES"]

/-- The level that a name in capitals stands for.  A name that is unknown stands for warnings, and
so does the name for leaving the level to the parent. -/
def called : String → Severity
  | "DEBUG" => .debug
  | "INFO" => .info
  | "ERROR" => .error
  | "CRITICAL" | "FATAL" => .critical
  | _ => .warning

theorem threshold_of_misnomer {level : String} (h : Text.upper level ∈ misnomers) :
    ∃ fault, threshold level = .error fault := by
  have hfound : ∀ name ∈ misnomers, (layouts.lookup name).isSome := by decide
  obtain ⟨fault, hfault⟩ := Option.isSome_iff_exists.mp (hfound _ h)
  refine ⟨fault, ?_⟩
  unfold threshold
  dsimp only
  rw [hfault]

theorem lookup_thresholds (name : String) :
    ((thresholds.lookup name).getD (some .warning)).getD .warning = called name := by
  by_cases h : name ∈ thresholds.map (·.1)
  · have hall : ∀ name ∈ thresholds.map (·.1),
        ((thresholds.lookup name).getD (some .warning)).getD .warning = called name := by decide
    exact hall name h
  · have hnone : thresholds.lookup name = none := by
      rw [List.lookup_eq_none_iff]
      intro t ht
      rw [bne_iff_ne]
      rintro rfl
      exact h (List.mem_map_of_mem ht)
    rw [hnone]
    simp only [thresholds, List.map_cons, List.map_nil, List.mem_cons, List.not_mem_nil,
      or_false, not_or] at h
    unfold called
    split <;> simp_all

theorem threshold_of_not_misnomer {level : String} (h : Text.upper level ∉ misnomers) :
    ∃ t, threshold level = .ok t ∧ t.getD .warning = called (Text.upper level) := by
  have hnone : layouts.lookup (Text.upper level) = none := by
    rw [List.lookup_eq_none_iff]
    intro m hm
    rw [bne_iff_ne]
    intro heq
    have hall : ∀ m ∈ layouts, m.1 ∈ misnomers := by decide
    exact h (heq ▸ hall m hm)
  refine ⟨_, ?_, lookup_thresholds (Text.upper level)⟩
  unfold threshold
  dsimp only
  rw [hnone]

end Severity

/-! ## One logger and both -/

/-- The name of the logger of a component. -/
def Component.loggerName : Component → String
  | .checker => "implicit_deps.checker"
  | .manifest => "implicit_deps.manifest"

namespace Loggers

@[simp] theorem of_change (ls : Loggers) (f : Logger → Logger) (c : Component) :
    (ls.change f c).of c = f (ls.of c) := by
  cases c <;> rfl

@[simp] theorem of_change_of_ne (ls : Loggers) (f : Logger → Logger) {c d : Component}
    (h : d ≠ c) : (ls.change f c).of d = ls.of d := by
  cases c <;> cases d <;> first | rfl | exact absurd rfl h

/-- A name that is refused is refused before any logger is changed. -/
theorem configureEach_of_error {level : String} {fault : Fault}
    (h : Severity.threshold level = .error fault) (json : Bool) (c : Component)
    (cs : List Component) (ls : Loggers) :
    configureEach level json (c :: cs) ls = (some fault, ls) := by
  rw [configureEach, h]

/-- A name that is not refused gives every logger that is set up its threshold and the form. -/
theorem configureEach_of_ok {level : String} {t : Option Severity}
    (h : Severity.threshold level = .ok t) (json : Bool) (cs : List Component) (ls : Loggers) :
    ∃ ls', configureEach level json cs ls = (none, ls') ∧
      ∀ c, ls'.of c = if c ∈ cs then { ls.of c with threshold := t, json } else ls.of c := by
  induction cs generalizing ls with
  | nil => exact ⟨ls, rfl, fun c => rfl⟩
  | cons d cs ih =>
      obtain ⟨ls', hrun, hof⟩ :=
        ih ((ls.change (fun l => { l with threshold := t }) d).change (·.writing json) d)
      refine ⟨ls', by rw [configureEach, h]; exact hrun, fun c => ?_⟩
      rw [hof c]
      by_cases hcd : c = d
      · subst hcd
        rw [of_change, of_change, if_pos (List.mem_cons_self : c ∈ c :: cs)]
        -- a logger that is set up twice is as if it were set up once
        split <;> rfl
      · rw [of_change_of_ne _ _ hcd, of_change_of_ne _ _ hcd]
        simp only [List.mem_cons, hcd, false_or]

end Loggers

/-! ## Requests -/

/-- What is asked of the loggers. -/
inductive Request
  | configure (level : String) (json : Bool)
  | write (component : Component) (json : Bool)
  | enter (component : Component) (filePath runId : Value)
  | leave (component : Component)
  | event (component : Component) (clock : Clock) (severity : Severity) (event : String)
      (fields : List (String × Value))

/-- A request, and the lines that it made or the fault with which it was refused. -/
abbrev Answered := Request × Except Fault (List String)

/-- What a request comes to, and the loggers after it. -/
def Request.perform : Request → Loggers → Except Fault (List String) × Loggers
  | .configure level json, ls =>
    match Loggers.configureEach level json [.checker, .manifest] ls with
    | (some fault, ls) => (.error fault, ls)
    | (none, ls) => (.ok [], ls)
  | .write c json, ls => (.ok [], ls.change (·.writing json) c)
  | .enter c filePath runId, ls => (.ok [], ls.change (·.withContext filePath runId) c)
  | .leave c, ls => (.ok [], ls.change (·.cleared) c)
  | .event c clock s text fields, ls => ((ls.of c).event clock s text fields, ls)


/-- The loggers after requests. -/
def Loggers.after (ls : Loggers) : List Request → Loggers
  | [] => ls
  | request :: requests => (request.perform ls).2.after requests

/-- The requests that loggers are asked, each with what it came to. -/
def Loggers.answers (ls : Loggers) : List Request → List Answered
  | [] => []
  | request :: requests =>
    (request, (request.perform ls).1) :: (request.perform ls).2.answers requests

/-! ## Looking back -/

/-- The level of the latest setup that was not refused; at first it is that of warnings.  The latest
request comes first, as everywhere below. -/
def levelAfter : List Answered → Severity
  | [] => .warning
  | (.configure level _, .ok _) :: _ => Severity.called (Text.upper level)
  | _ :: earlier => levelAfter earlier

/-- The form that the latest request gave a logger, if it was not refused; at first it is JSON. -/
def jsonAfter (c : Component) : List Answered → Bool
  | [] => true
  | (.configure _ json, .ok _) :: _ => json
  | (.write d json, _) :: earlier => if d = c then json else jsonAfter c earlier
  | _ :: earlier => jsonAfter c earlier

/-- The context that the latest request gave a logger or took from it; at first there is none. -/
def contextAfter (c : Component) : List Answered → List (String × Value)
  | [] => []
  | (.enter d filePath runId, _) :: earlier =>
    if d = c then Logger.contextOf filePath runId else contextAfter c earlier
  | (.leave d, _) :: earlier => if d = c then [] else contextAfter c earlier
  | _ :: earlier => contextAfter c earlier

/-- Loggers go by what is found when looking back. -/
structure GoBy (past : List Answered) (ls : Loggers) : Prop where
  component : ∀ c, (ls.of c).component = c.loggerName
  level : ∀ c, (ls.of c).threshold.getD .warning = levelAfter past
  json : ∀ c, (ls.of c).json = jsonAfter c past
  context : ∀ c, (ls.of c).context = contextAfter c past

variable {past : List Answered} {ls : Loggers}

theorem goBy_start : GoBy [] {} where
  component c := by cases c <;> rfl
  level c := by cases c <;> rfl
  json c := by cases c <;> rfl
  context c := by cases c <;> rfl

/-- A setup is refused for the names that stand for something else, and then nothing has changed. -/
theorem perform_configure_of_misnomer {level : String} (h : Text.upper level ∈ Severity.misnomers)
    (json : Bool) (ls : Loggers) :
    ∃ fault, (Request.configure level json).perform ls = (.error fault, ls) := by
  obtain ⟨fault, hfault⟩ := Severity.threshold_of_misnomer h
  refine ⟨fault, ?_⟩
  rw [Request.perform, Loggers.configureEach_of_error hfault]

/-- A setup that is not refused gives both loggers the level of the name and the form. -/
theorem perform_configure_of_not_misnomer {level : String}
    (h : Text.upper level ∉ Severity.misnomers) (json : Bool) (ls : Loggers) :
    ∃ t ls', (Request.configure level json).perform ls = (.ok [], ls') ∧
      t.getD .warning = Severity.called (Text.upper level) ∧
      ∀ c, ls'.of c = { ls.of c with threshold := t, json } := by
  obtain ⟨t, ht, hcalled⟩ := Severity.threshold_of_not_misnomer h
  obtain ⟨ls', hrun, hof⟩ := Loggers.configureEach_of_ok ht json [.checker, .manifest] ls
  refine ⟨t, ls', by rw [Request.perform, hrun], hcalled, fun c => ?_⟩
  rw [hof c, if_pos (by cases c <;> decide)]

/-- A request that changes one logger, and neither its name nor its threshold, keeps the loggers in
step with looking back if looking back finds its form and its context changed alike. -/
theorem GoBy.change (h : GoBy past ls) {f : Logger → Logger} {c : Component} {a : Answered}
    (hcomponent : (f (ls.of c)).component = (ls.of c).component)
    (hthreshold : (f (ls.of c)).threshold = (ls.of c).threshold)
    (hlevel : levelAfter (a :: past) = levelAfter past)
    (hjson : jsonAfter c (a :: past) = (f (ls.of c)).json)
    (hjsonOther : ∀ d, c ≠ d → jsonAfter d (a :: past) = jsonAfter d past)
    (hcontext : contextAfter c (a :: past) = (f (ls.of c)).context)
    (hcontextOther : ∀ d, c ≠ d → contextAfter d (a :: past) = contextAfter d past) :
    GoBy (a :: past) (ls.change f c) := by
  constructor <;> intro d <;> by_cases hd : c = d
  · rw [← hd, Loggers.of_change, hcomponent, h.component]
  · rw [Loggers.of_change_of_ne _ _ (Ne.symm hd), h.component]
  · rw [← hd, Loggers.of_change, hthreshold, h.level, hlevel]
  · rw [Loggers.of_change_of_ne _ _ (Ne.symm hd), h.level, hlevel]
  · rw [← hd, Loggers.of_change, hjson]
  · rw [Loggers.of_change_of_ne _ _ (Ne.symm hd), h.json, hjsonOther d hd]
  · rw [← hd, Loggers.of_change, hcontext]
  · rw [Loggers.of_change_of_ne _ _ (Ne.symm hd), h.context, hcontextOther d hd]

/-- One request keeps what the loggers go by in step with what is found when looking back. -/
theorem goBy_perform (h : GoBy past ls) (request : Request) :
    GoBy ((request, (request.perform ls).1) :: past) (request.perform ls).2 := by
  cases request with
  | configure level json =>
      by_cases hname : Text.upper level ∈ Severity.misnomers
      · obtain ⟨fault, hrun⟩ := perform_configure_of_misnomer hname json ls
        rw [hrun]
        exact ⟨h.component, h.level, h.json, h.context⟩
      · obtain ⟨t, ls', hrun, hcalled, hof⟩ := perform_configure_of_not_misnomer hname json ls
        rw [hrun]
        constructor <;> intro c <;> rw [hof c]
        · exact h.component c
        · exact hcalled
        · rfl
        · exact h.context c
  | write c json =>
      exact h.change (f := (·.writing json)) (a := (.write c json, .ok [])) rfl rfl rfl
        (if_pos rfl) (fun _ hd => if_neg hd) (h.context c).symm fun _ _ => rfl
  | enter c filePath runId =>
      exact h.change (f := (·.withContext filePath runId))
        (a := (.enter c filePath runId, .ok [])) rfl rfl rfl (h.json c).symm (fun _ _ => rfl)
        (if_pos rfl) fun _ hd => if_neg hd
  | leave c =>
      exact h.change (f := (·.cleared)) (a := (.leave c, .ok [])) rfl rfl rfl (h.json c).symm
        (fun _ _ => rfl) (if_pos rfl) fun _ hd => if_neg hd
  | event c clock severity text fields => exact ⟨h.component, h.level, h.json, h.context⟩

/-- Any requests keep what the loggers go by in step with what is found when looking back. -/
theorem goBy_after (h : GoBy past ls) (requests : List Request) :
    GoBy ((ls.answers requests).reverse ++ past) (ls.after requests) := by
  induction requests generalizing past ls with
  | nil => exact h
  | cons request requests ih =>
      rw [Loggers.answers, List.reverse_cons, List.append_assoc, List.singleton_append]
      exact ih (goBy_perform h request)

/-- A request that is refused leaves the loggers as they were. -/
theorem loggers_of_refused {request : Request} {fault : Fault} {ls' : Loggers}
    (h : request.perform ls = (.error fault, ls')) : ls' = ls := by
  cases request with
  | configure level json =>
      by_cases hname : Text.upper level ∈ Severity.misnomers
      · obtain ⟨_, hrun⟩ := perform_configure_of_misnomer hname json ls
        rw [hrun] at h
        exact (Prod.mk.inj h).2.symm
      · obtain ⟨_, _, hrun, -⟩ := perform_configure_of_not_misnomer hname json ls
        rw [hrun] at h
        cases h
  | write c json => cases h
  | enter c filePath runId => cases h
  | leave c => cases h
  | event c clock severity text fields => exact (Prod.mk.inj h).2.symm

/-! ## What the next request comes to -/

/-- The record of an event of a component, in a context. -/
def recordOf (c : Component) (context : List (String × Value)) (clock : Clock)
    (severity : Severity) (text : String) (fields : List (String × Value)) : Record where
  clock := clock
  severity := severity
  component := c.loggerName
  message := text
  fields := putAll (putAll [("event_type", .text text)] context) fields

/-- An event whose fields can be logged makes one record if it is as severe as the level that is
found when looking back, and none otherwise.  The record is written in the form that is found for
its logger, and the loggers stay as they are. -/
theorem perform_event (h : GoBy past ls) (c : Component) (clock : Clock) (severity : Severity)
    (text : String) {fields : List (String × Value)}
    (hfields : ∀ name ∈ namesOf fields, name ∉ barred) :
    (Request.event c clock severity text fields).perform ls =
      (.ok (if (levelAfter past).rank ≤ severity.rank then
          let record := recordOf c (contextAfter c past) clock severity text fields
          [if jsonAfter c past then record.jsonLine else record.plainLine]
        else []), ls) := by
  have hrecord : Record.mk clock severity (ls.of c).component text
      ((ls.of c).fieldsFor text fields) =
        recordOf c (contextAfter c past) clock severity text fields := by
    unfold Logger.fieldsFor recordOf
    rw [h.component, h.context]
  obtain ⟨hevent, hemit⟩ := event_eq_of_not_barred (l := ls.of c) clock severity text hfields
  rw [Request.perform, hevent, hemit, hrecord, Logger.lineFor, h.json, Logger.admits, h.level]
  simp only [decide_eq_true_eq]

/-- Let the loggers, which start out with JSON and the level of warnings, be asked anything in any
order.  Then:

* an event whose fields can be logged makes exactly one record if it is at least as severe as the
  level of the latest setup that was not refused, and none otherwise; the record is written as JSON
  if the latest request that gave its logger a form gave it JSON, and else as a plain line;
* changing the form of one logger changes neither the other nor anything else of this one;
* a setup is refused for just those names that stand for something else than a level; if it is not
  refused, both loggers have the level of the name, which is that of warnings for unknown names, and
  the form;
* whatever is refused leaves both loggers as they were, and events leave them so too. -/
theorem Loggers.written_by_history (requests : List Request) :
    let ls := Loggers.after {} requests
    let past := (Loggers.answers {} requests).reverse
    (∀ c clock severity text fields, (∀ name ∈ namesOf fields, name ∉ barred) →
      (Request.event c clock severity text fields).perform ls =
        (.ok (if (levelAfter past).rank ≤ severity.rank then
            let record := recordOf c (contextAfter c past) clock severity text fields
            [if jsonAfter c past then record.jsonLine else record.plainLine]
          else []), ls)) ∧
    (∀ c json, ∃ ls', (Request.write c json).perform ls = (.ok [], ls') ∧
      ls'.of c = { ls.of c with json } ∧ ∀ d, d ≠ c → ls'.of d = ls.of d) ∧
    (∀ level json,
      ((∃ fault, ((Request.configure level json).perform ls).1 = .error fault) ↔
        Text.upper level ∈ Severity.misnomers) ∧
      (Text.upper level ∉ Severity.misnomers → ∃ ls',
        (Request.configure level json).perform ls = (.ok [], ls') ∧
        ∀ c, (ls'.of c).json = json ∧ (ls'.of c).context = (ls.of c).context ∧
          ∀ severity, (ls'.of c).admits severity =
            decide ((Severity.called (Text.upper level)).rank ≤ severity.rank))) ∧
    (∀ (request : Request) fault ls', request.perform ls = (.error fault, ls') → ls' = ls) ∧
    ∀ c clock severity text fields,
      ((Request.event c clock severity text fields).perform ls).2 = ls := by
  intro ls past
  have hgo : GoBy past ls := by
    have hafter := goBy_after goBy_start requests
    rwa [List.append_nil] at hafter
  refine ⟨fun c clock severity text fields hfields =>
      perform_event hgo c clock severity text hfields,
    fun c json => ?_, fun level json => ⟨?_, ?_⟩,
    fun request fault ls' h => loggers_of_refused h, fun _ _ _ _ _ => rfl⟩
  · exact ⟨_, rfl, of_change _ _ _, fun d hd => of_change_of_ne _ _ hd⟩
  · constructor
    · rintro ⟨fault, hfault⟩
      by_contra hname
      obtain ⟨_, _, hrun, -⟩ := perform_configure_of_not_misnomer hname json ls
      rw [hrun] at hfault
      cases hfault
    · intro hname
      obtain ⟨fault, hrun⟩ := perform_configure_of_misnomer hname json ls
      exact ⟨fault, by rw [hrun]⟩
  · intro hname
    obtain ⟨t, ls', hrun, hcalled, hof⟩ := perform_configure_of_not_misnomer hname json ls
    refine ⟨ls', hrun, fun c => ?_⟩
    rw [hof c]
    refine ⟨rfl, rfl, fun severity => ?_⟩
    rw [Logger.admits, hcalled]

/-- A setup that lets more through, a change of form, and a setup that is refused. -/
def mixed : List Request :=
  [.configure "info" false, .write .manifest true, .configure "Basic_Format" true]

/-- The refused setup changes nothing: the checker writes plain lines and the manifests JSON, both
from the level of the first setup on. -/
theorem Loggers.written_by_history_mixed :
    (∀ name ∈ namesOf [("n", .int 1)], name ∉ barred) ∧
    (Request.event .manifest ⟨"t", "u"⟩ .info "seen" [("n", .int 1)]).perform
        (Loggers.after {} mixed) =
      (.ok ["\x7b\"timestamp\": \"t\", \"level\": \"INFO\", " ++
        "\"component\": \"implicit_deps.manifest\", \"message\": \"seen\", " ++
        "\"event_type\": \"seen\", \"n\": 1\x7d"], Loggers.after {} mixed) ∧
    (Request.event .checker ⟨"t", "u"⟩ .info "seen" [("n", .int 1)]).perform
        (Loggers.after {} mixed) =
      (.ok ["u - implicit_deps.checker - INFO - seen"], Loggers.after {} mixed) ∧
    (Request.event .checker ⟨"t", "u"⟩ .debug "seen" [("n", .int 1)]).perform
        (Loggers.after {} mixed) = (.ok [], Loggers.after {} mixed) ∧
    Text.upper "warning" ∉ Severity.misnomers ∧
    ∃ fault, ((Request.configure "_styles" true).perform (Loggers.after {} mixed)).1 =
      .error fault := by
  have hfields : ∀ name ∈ namesOf [("n", .int 1)], name ∉ barred := by decide
  obtain ⟨hevent, -, hsetup, -⟩ := Loggers.written_by_history mixed
  refine ⟨hfields, ?_, ?_, ?_, by decide +kernel, (hsetup "_styles" true).1.mpr (by decide +kernel)⟩
  · rw [hevent .manifest ⟨"t", "u"⟩ .info "seen" _ hfields]
    exact congrArg (fun lines => (Except.ok lines, Loggers.after {} mixed)) (by decide +kernel)
  · rw [hevent .checker ⟨"t", "u"⟩ .info "seen" _ hfields]
    exact congrArg (fun lines => (Except.ok lines, Loggers.after {} mixed)) (by decide +kernel)
  · rw [hevent .checker ⟨"t", "u"⟩ .debug "seen" _ hfields]
    exact congrArg (fun lines => (Except.ok lines, Loggers.after {} mixed)) (by decide +kernel)

end ImportAudit.Log
