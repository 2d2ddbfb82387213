/-
# ImportAudit.Proofs.Command.Output — what a check prints where JSON is asked for.

A check that ends with a status loads settings, sets up the loggers, finds the files to check, and
goes on with them if there are any (`exists_of_check`).  None of these steps prints: what comes
before the result is told of where errors go (`keeps_configureLoggers`, and the frame of loading and
checking).  So what is printed is the JSON text of the result and nothing else, or, if there is no
file to check, the notice that there is none, which is no JSON text (`run_check_output`).
-/
import ImportAudit.Proofs.Command.Dispatch
import ImportAudit.Proofs.Console.Literal
import ImportAudit.Proofs.Json.Written
import ImportAudit.Proofs.Session.Frame
import ImportAudit.Proofs.Settings.Sections

namespace ImportAudit

/-! ## A result as JSON -/

theorem Finding.isPlain_toValue (f : Finding) : Json.IsPlain f.toValue := by
  refine .mapping ?_ ?_
  · simp only [List.map_cons, List.map_nil]
    repeat' constructor
    all_goals simp [Value.textKeys]
  · simp only [List.map_cons, List.map_nil, List.forall_mem_cons]
    exact ⟨.text _, .text _, .text _, .int _, .int _, .int _, .int _, .text _, nofun⟩

theorem Json.isPlain_ofTexts (texts : List String) : Json.IsPlain (.ofTexts texts) := by
  refine .list fun v hv => ?_
  obtain ⟨text, -, rfl⟩ := List.mem_map.mp hv
  exact .text text

theorem CheckResult.isPlain_toValue (r : CheckResult) : Json.IsPlain r.toValue := by
  have hfindings : Json.IsPlain (.list (r.findings.map Finding.toValue)) := by
    refine .list fun v hv => ?_
    obtain ⟨f, -, rfl⟩ := List.mem_map.mp hv
    exact f.isPlain_toValue
  refine .mapping ?_ ?_
  · simp only [List.map_cons, List.map_nil]
    repeat' constructor
    all_goals simp [Value.textKeys]
  · simp only [List.map_cons, List.map_nil, List.forall_mem_cons]
    exact ⟨.int _, .int _, hfindings, Json.isPlain_ofTexts _, Json.isPlain_ofTexts _, nofun⟩

namespace Command

open Run (run_bind_eq_ok_iff run_ofExcept_eq_ok_iff run_ofExcept_bind_eq_ok_iff)

/-! ## The steps of a check -/

variable {γ : Type} {view : Session → γ} {s t u v : Session} {status : Nat}

theorem keeps_configureLoggers (hview : Session.Blind view) (r : CheckRequest)
    (logging : LoggingSettings) : Run.Keeps view (configureLoggers r logging) := by
  refine (Run.keeps_ofExcept _).bind fun _ => Run.keeps_get.bind fun _ => ?_
  exact (Run.keeps_ofExcept _).bind fun loggers => Run.keeps_modify fun s => hview.loggers s loggers

/-- Finding files asks for what a session can see, and leaves the session as it is. -/
theorem run_filesOf_eq_ok_iff {paths : List String} {d : DiscoverySettings} {files : List Path} :
    (filesOf paths d).run s = (.ok files, t) ↔
      t = s ∧ d.guise.lacks "extensions" = false ∧ d.guise.lacks "exclude_dirs" = false ∧
        ∃ endings excluded, Files.Discovery.endings d.extensions = .ok endings ∧
          Files.Discovery.excluded d.excluded = .ok excluded ∧
          Files.Discovery.find s.files s.workingDir endings excluded paths = .ok files := by
  have hok : ∀ {ε α : Type} {e : Except ε α} {f : ε → Fault} {a : α},
      e.mapError f = .ok a ↔ e = .ok a := by
    intro ε α e f a
    cases e <;> simp [Except.mapError]
  unfold filesOf
  simp only [run_ofExcept_bind_eq_ok_iff, Run.run_get_bind, run_ofExcept_eq_ok_iff, hok,
    DiscoverySettings.member, Settings.member_eq_ok_iff]
  constructor
  · rintro ⟨_, ⟨hextensions, rfl⟩, _, ⟨hnames, rfl⟩, endings, hendings, excluded, hexcluded, hfind,
      rfl⟩
    exact ⟨rfl, hextensions, hnames, endings, excluded, hendings, hexcluded, hfind⟩
  · rintro ⟨rfl, hextensions, hnames, endings, excluded, hendings, hexcluded, hfind⟩
    exact ⟨_, ⟨hextensions, rfl⟩, _, ⟨hnames, rfl⟩, endings, hendings, excluded, hexcluded, hfind,
      rfl⟩

theorem run_filesOf_congr {paths : List String} {d : DiscoverySettings} {files : List Path}
    (hsame : (u.files, u.workingDir) = (s.files, s.workingDir))
    (h : (filesOf paths d).run u = (.ok files, v)) : (filesOf paths d).run s = (.ok files, s) := by
  obtain ⟨-, hextensions, hnames, endings, excluded, hendings, hexcluded, hfind⟩ :=
    run_filesOf_eq_ok_iff.mp h
  obtain ⟨hfiles, hdir⟩ := Prod.mk.inj hsame
  rw [hfiles, hdir] at hfind
  exact run_filesOf_eq_ok_iff.mpr
    ⟨rfl, hextensions, hnames, endings, excluded, hendings, hexcluded, hfind⟩

/-- The notice that there is no file to check. -/
def noticeText : String := "⚠️  No source files found to check."

/-- A check that ends with a status has loaded settings and found files, and has printed nothing
until then.  If it found no files, it says so at most, and else it goes on with them. -/
theorem exists_of_check {r : CheckRequest} (h : (check r).run s = (.ok status, v)) :
    ∃ settings t u options format files,
      (Run.loadSettings (r.settingsFile.map Path.ofString)).run s = (.ok settings, t) ∧
      (filesOf r.paths settings.discovery).run s = (.ok files, s) ∧
      settings.rule.merged r.flags = .ok options ∧
      r.formatWith settings.output = .ok format ∧
      u.files = s.files ∧ u.workingDir = s.workingDir ∧ u.output = s.output ∧
      (files = [] →
        (if r.quiet then pure () else Run.say noticeText : Run Unit).run u = (.ok (), v)) ∧
      (files ≠ [] → (checkFiles r options format (r.fileWith settings.output)
        (r.failsWith settings.output) files).run u = (.ok status, v)) := by
  obtain ⟨settings, t, hload, hloaded⟩ := run_bind_eq_ok_iff.mp h
  obtain ⟨_, u, hloggers, hready⟩ := run_bind_eq_ok_iff.mp hloaded
  obtain ⟨options, hoptions, hmerged⟩ := run_ofExcept_bind_eq_ok_iff.mp hready
  obtain ⟨format, hformat, hasked⟩ := run_ofExcept_bind_eq_ok_iff.mp hmerged
  -- what comes before the files are found leaves what was printed and the files as they are
  have hkept : ∀ {γ : Type} {view : Session → γ}, Session.Blind view → view u = view s := by
    intro γ view hview
    rw [(keeps_configureLoggers hview _ _).of_run hloggers]
    exact (Run.keeps_loadSettings hview _).of_run hload
  have hsame := hkept Session.blind_files
  have houtput : u.output = s.output := hkept Session.blind_output
  dsimp only at hasked
  split at hasked
  · cases hasked
  · obtain ⟨files, w, hfiles, hfound⟩ := run_bind_eq_ok_iff.mp hasked
    obtain rfl := (run_filesOf_eq_ok_iff.mp hfiles).1
    refine ⟨settings, t, w, options, format, files, hload, run_filesOf_congr hsame hfiles, hoptions,
      hformat, (Prod.mk.inj hsame).1, (Prod.mk.inj hsame).2, houtput, ?_⟩
    cases files with
    | cons p ps => exact ⟨nofun, fun _ => hfound⟩
    | nil =>
        refine ⟨fun _ => ?_, fun hne => absurd rfl hne⟩
        cases hquiet : r.quiet with
        | true =>
            rw [hquiet] at hfound
            cases hfound
            rfl
        | false =>
            rw [hquiet] at hfound
            obtain ⟨_, x, hsay, hend⟩ := run_bind_eq_ok_iff.mp hfound
            cases hend
            exact hsay

/-! ## What is printed -/

/-- A request asks for JSON where results are printed, and for no file. -/
structure CheckRequest.PrintsJson (r : CheckRequest) (o : OutputSettings) : Prop where
  format : r.formatWith o = .ok "json"
  noFile : (r.fileWith o).truthy = false

theorem paragraph_notice :
    Console.paragraph Run.outputWidth noticeText = .ok (noticeText ++ "\n") :=
  Console.paragraph_of_short (by decide +kernel) (by decide +kernel) (by decide +kernel)
    (by decide +kernel)

theorem run_say_of_ok {text shown : String} (h : Console.paragraph Run.outputWidth text = .ok shown)
    (s : Session) : (Run.say text).run s = (.ok (), { s with output := s.output ++ shown }) := by
  have hall : Console.printAll [Console.paragraph Run.outputWidth text] = (shown, none) := by
    rw [h]
    simp only [Console.printAll, String.append_empty]
  unfold Run.say Run.print
  rw [hall]
  rfl

theorem run_say_of_error {text : String} {f : Fault}
    (h : Console.paragraph Run.outputWidth text = .error f) (s : Session) :
    (Run.say text).run s = (.error f, s) := by
  have hnothing : s.output ++ "" = s.output := String.append_empty
  unfold Run.say Run.print
  rw [h]
  show (Except.error f, { s with output := s.output ++ "" }) = _
  rw [hnothing]

theorem output_notice {quiet : Bool}
    (h : (if quiet then pure () else Run.say noticeText : Run Unit).run u = (.ok (), v)) :
    v.output = u.output ++ (if quiet then "" else noticeText ++ "\n") := by
  cases quiet with
  | true =>
      cases h
      exact String.append_empty.symm
  | false =>
      rw [if_neg Bool.false_ne_true, run_say_of_ok paragraph_notice] at h
      obtain ⟨-, rfl⟩ := Prod.mk.inj h
      rfl

/-- Writing a text changes the files, or is refused. -/
theorem run_writeText (path text : String) (s : Session) :
    (writeText path text).run s =
      match s.files.write s.workingDir path (Text.Utf8.encode text) with
      | .ok files => (.ok (), { s with files })
      | .error f => (.error (.files f), s) := by
  unfold writeText
  rw [Run.run_get_bind]
  dsimp only
  cases s.files.write s.workingDir path (Text.Utf8.encode text) <;> rfl

/-- A result that is written to no file is printed. -/
theorem run_writeJson_of_noFile (result : CheckResult) {file : Value} (h : file.truthy = false)
    (s : Session) : (writeJson result file).run s =
      (.ok (), { s with output := s.output ++ result.toJson ++ "\n" }) := by
  unfold writeJson
  rw [h, if_neg Bool.false_ne_true]
  rfl

/-- Checking files prints the JSON text of the result, and nothing before it. -/
theorem output_checkFiles {r : CheckRequest} {options : RuleOptions} {file : Value} {fails : Bool}
    {files : List Path} (hfile : file.truthy = false)
    (h : (checkFiles r options "json" file fails files).run u = (.ok status, v)) :
    ∃ result t, (Run.check files options).run u = (.ok result, t) ∧
      v.output = u.output ++ result.toJson ++ "\n" := by
  obtain ⟨result, t, hcheck, hchecked⟩ := run_bind_eq_ok_iff.mp h
  obtain ⟨_, w, hdeliver, hend⟩ := run_bind_eq_ok_iff.mp hchecked
  have hkeeps : t.output = u.output :=
    (Run.keeps_check Session.blind_output.toBlindToLog files options).of_run hcheck
  have hprinted : w.output = t.output ++ result.toJson ++ "\n" := by
    unfold deliver writeJson at hdeliver
    rw [if_pos rfl, hfile, if_neg Bool.false_ne_true] at hdeliver
    cases hdeliver
    rfl
  cases hend
  exact ⟨result, t, hcheck, by rw [hprinted, hkeeps]⟩

/-- A command line that is read and not refused by the check itself ends as the check does. -/
theorem check_of_runCheck {words : List String} {a : Arguments}
    (hread : checkShape.read s.files s.workingDir words = .ok (some a))
    (hpast : ∀ message, ((check (.ofArguments a)).run s).1 ≠ .error (.usage message))
    (h : (runCheck words).run s = (.ok status, v)) :
    (check (.ofArguments a)).run s = (.ok status, v) := by
  rw [runCheck, run_perform (fun a => check (.ofArguments a)) hread] at h
  match hcheck : (check (.ofArguments a)).run s with
  | (.ok n, t) => rwa [hcheck] at h
  | (.error f, t) =>
      rw [hcheck] at h hpast
      cases f with
      | usage message => exact absurd rfl (hpast message)
      | _ => cases h

/-- Let the program be called with `check`, the command line be in order, and the run end with a
status.  It has loaded settings and found the files to check.  If JSON is asked for and no file to
write it to, then

* with a file to check, exactly one JSON object is printed, which has the members of the result of
  checking the files;
* with none, the notice that there is none is printed, or nothing. -/
theorem run_check_output {words : List String} {a : Arguments}
    (hread : checkShape.read s.files s.workingDir words = .ok (some a))
    (hpast : ∀ message, ((check (.ofArguments a)).run s).1 ≠ .error (.usage message))
    (hrun : (run ("check" :: words)).run s = (.ok status, v)) :
    ∃ settings t files,
      (Run.loadSettings ((CheckRequest.ofArguments a).settingsFile.map Path.ofString)).run s =
        (.ok settings, t) ∧
      (filesOf (CheckRequest.ofArguments a).paths settings.discovery).run s = (.ok files, s) ∧
      ((CheckRequest.ofArguments a).PrintsJson settings.output →
        (files ≠ [] → ∃ u w options result, u.files = s.files ∧ u.workingDir = s.workingDir ∧
          settings.rule.merged (CheckRequest.ofArguments a).flags = .ok options ∧
          (Run.check files options).run u = (.ok result, w) ∧
          v.output = s.output ++ result.toJson ++ "\n" ∧
          Json.IsText (result.toJson ++ "\n").toList
            (.ofMembers [("files_checked", .int result.filesChecked),
              ("total_findings", .int result.findings.length),
              ("findings", .list (result.findings.map Finding.toValue)),
              ("errors", .ofTexts result.errors), ("warnings", .ofTexts result.warnings)])) ∧
        (files = [] → v.output = s.output ++
          (if (CheckRequest.ofArguments a).quiet then "" else noticeText ++ "\n"))) := by
  rw [run_check] at hrun
  have hcheck := check_of_runCheck hread hpast hrun
  obtain ⟨settings, t, u, options, format, files, hload, hfiles, hoptions, hformat, hsame, hdir,
    houtput, hnone, hsome⟩ := exists_of_check hcheck
  refine ⟨settings, t, files, hload, hfiles, fun hjson => ⟨?_, ?_⟩⟩
  · intro hne
    have hfound := hsome hne
    obtain rfl : format = "json" := Except.ok.inj (hformat.symm.trans hjson.format)
    obtain ⟨result, w, hresult, hprinted⟩ := output_checkFiles hjson.noFile hfound
    have hbreak : Json.IsBlanks ['\n'] := fun c hc => by
      rw [List.mem_singleton.mp hc]
      rfl
    refine ⟨u, w, options, result, hsame, hdir, hoptions, hresult, ?_, ?_⟩
    · rw [hprinted, houtput]
    · rw [String.toList_append]
      exact Json.isText_render result.isPlain_toValue.isDenotable .report hbreak
  · intro hnothing
    rw [output_notice (hnone hnothing), houtput]

/-- The words behind `check` that ask for the JSON of what is in a path. -/
def jsonWords (path : String) : List String := [path, "--output-format", "json"]

/-- The arguments that they give. -/
def jsonArguments (path : String) : Arguments where
  given := [({ name := "--output-format", use := some (.oneOf Settings.formats)
               help := "Output format for results (default from config or console)" }, "json")]
  rest := [path]

/-- A session in which a path leads to an entry. -/
def withEntry (path : String) (entry : Files.Entry) : Session where
  clock := ⟨"", ""⟩
  files := ⟨[([path], entry)]⟩

/-- A source file with an import of a package that nothing declares. -/
def undeclaredImport : Files.Entry := .file (Text.Utf8.encode "import 'x'")

/-- The settings that a run in a session loads put no file in the place of what is printed, and the
files that they find for a path are none or are some. -/
def isSetUp (s : Session) (path : String) (none : Bool) : Bool :=
  Run.endsIn (Run.loadSettings .none) s fun settings _ =>
    !settings.output.file.truthy &&
      Run.endsIn (filesOf [path] settings.discovery) s fun files _ => files.isEmpty == none

theorem of_isSetUp {path : String} {none : Bool} {settings : Settings} {files : List Path}
    (h : isSetUp s path none = true)
    (hload : (Run.loadSettings .none).run s = (.ok settings, t))
    (hfiles : (filesOf [path] settings.discovery).run s = (.ok files, s)) :
    settings.output.file.truthy = false ∧ files.isEmpty = none := by
  unfold isSetUp Run.endsIn at h
  rw [hload] at h
  simp only [Bool.and_eq_true, Bool.not_eq_true', hfiles, beq_iff_eq] at h
  exact h

/-- A check that asks for JSON and ends with a status was not refused by itself. -/
theorem isPast_of_endsIn {a : Arguments}
    (h : Run.endsIn (check (.ofArguments a)) s (fun _ _ => true) = true) :
    ∀ message, ((check (.ofArguments a)).run s).1 ≠ .error (.usage message) := by
  intro message heq
  obtain ⟨status, v, hrun, -⟩ := Run.exists_of_endsIn h
  rw [hrun] at heq
  cases heq

/-- The result of checking a file that imports a package is printed as JSON. -/
theorem run_check_prints_result :
    ∃ status v, ∃ result : CheckResult,
      (run ("check" :: jsonWords "a.js")).run (withEntry "a.js" undeclaredImport) =
        (.ok status, v) ∧
      v.output = result.toJson ++ "\n" ∧ Json.IsText v.output.toList result.toValue := by
  have hread : checkShape.read (withEntry "a.js" undeclaredImport).files []
      (jsonWords "a.js") = .ok (some (jsonArguments "a.js")) := rfl
  have hends : Run.endsIn (run ("check" :: jsonWords "a.js")) (withEntry "a.js" undeclaredImport)
      (fun _ _ => true) = true := by decide +kernel
  have hcheck : Run.endsIn (check (.ofArguments (jsonArguments "a.js")))
      (withEntry "a.js" undeclaredImport) (fun _ _ => true) = true := by decide +kernel
  have hsetUp : isSetUp (withEntry "a.js" undeclaredImport) "a.js" false = true := by
    decide +kernel
  obtain ⟨status, v, hrun, -⟩ := Run.exists_of_endsIn hends
  obtain ⟨settings, t, files, hload, hfiles, hprints⟩ :=
    run_check_output hread (isPast_of_endsIn hcheck) hrun
  obtain ⟨hfile, hsome⟩ := of_isSetUp hsetUp hload hfiles
  have hne : files ≠ [] := by
    rintro rfl
    cases hsome
  obtain ⟨u, w, options, result, -, -, -, -, hprinted, htext⟩ := (hprints ⟨rfl, hfile⟩).1 hne
  have houtput : v.output = result.toJson ++ "\n" := by
    rw [hprinted]
    exact congrArg (· ++ "\n") String.empty_append
  exact ⟨status, v, result, hrun, houtput, houtput ▸ htext⟩

/-- In a directory with no source file the check ends with a status, and what it prints is no JSON
text although JSON is asked for. -/
theorem run_check_prints_notice :
    ∃ status v,
      (run ("check" :: jsonWords "empty")).run (withEntry "empty" .directory) = (.ok status, v) ∧
      ¬∃ value, Json.IsText v.output.toList value := by
  have hread : checkShape.read (withEntry "empty" .directory).files []
      (jsonWords "empty") = .ok (some (jsonArguments "empty")) := rfl
  have hends : Run.endsIn (run ("check" :: jsonWords "empty")) (withEntry "empty" .directory)
      (fun _ _ => true) = true := by decide +kernel
  have hcheck : Run.endsIn (check (.ofArguments (jsonArguments "empty")))
      (withEntry "empty" .directory) (fun _ _ => true) = true := by decide +kernel
  have hsetUp : isSetUp (withEntry "empty" .directory) "empty" true = true := by decide +kernel
  obtain ⟨status, v, hrun, -⟩ := Run.exists_of_endsIn hends
  have hasked := run_check (jsonWords "empty") (withEntry "empty" .directory)
  have hchecked := check_of_runCheck hread (isPast_of_endsIn hcheck) (hasked ▸ hrun)
  obtain ⟨settings, t, u, options, format, files, hload, hfiles, -, -, -, -, houtput, hnone, -⟩ :=
    exists_of_check hchecked
  obtain ⟨-, hempty⟩ := of_isSetUp hsetUp hload hfiles
  have hprinted := output_notice (hnone (List.isEmpty_iff.mp hempty))
  refine ⟨status, v, hrun, ?_⟩
  rintro ⟨value, hvalue⟩
  obtain ⟨c, rest, hhead, hbegins⟩ := hvalue.head
  have hnotice : v.output = noticeText ++ "\n" := by
    rw [hprinted, houtput]
    rfl
  rw [hnotice] at hhead
  have hfirst : (Json.skipBlank (noticeText ++ "\n").toList).head? = some '⚠' := by decide +kernel
  rw [hhead] at hfirst
  obtain rfl := Option.some.inj hfirst
  exact absurd hbegins (by decide)

end Command

end ImportAudit
