/-
# ImportAudit.Proofs.Command.Flags — settings that act as flags do.

Once settings are loaded, a check goes by what the request and the settings come to together
(`SameSight`): a format is given by a flag or else set, and findings make the check fail if this is
set and no flag denies it.  So setting one of these is as good as the flag (`settings_as_flags`).
That output is to be quiet or verbose is settled by the flags alone: what is set for it is never
looked at.
-/
import ImportAudit.Proofs.Command.Narrowing
import ImportAudit.Proofs.Session.Cache
import ImportAudit.Proofs.Session.Disregard

namespace ImportAudit.Command

open Run (Disregards run_bind_of_ok)

variable {s s' t u v : Session} {r r' : CheckRequest} {c c' : Settings} {a a' : Arguments}
  {words words' : List String} {kept : Option Settings} {env : Environment}

/-! ## Flags -/

/-- The option that asks for one line per finding. -/
def quietSwitch : Switch where
  name := "--quiet"
  letter := some 'q'
  help := "Only print one line per finding"

/-- The option that asks for more. -/
def verboseSwitch : Switch where
  name := "--verbose"
  letter := some 'v'
  help := "Enable verbose output"

/-- The option by which findings do not make a check fail. -/
def noFailSwitch : Switch where
  name := "--no-fail"
  help := "Exit with status 0 even when implicit dependencies are found"

/-- The option that names the format of results. -/
def formatSwitch : Switch where
  name := "--output-format"
  use := some (.oneOf Settings.formats)
  help := "Output format for results (default from config or console)"

/-- A text that is one of several but for the case of letters is not objected to. -/
theorem objection?_oneOf {names : List String} {text : String}
    (h : folded text ∈ names.map folded) :
    (Use.oneOf names).objection? s.files s.workingDir text = none := by
  unfold Use.objection?
  dsimp only
  rw [if_pos (List.contains_iff_mem.mpr h)]

theorem complaint?_format {format : String} (h : folded format ∈ Settings.formats.map folded) :
    formatSwitch.complaint? s.files s.workingDir format = none := by
  unfold Switch.complaint? formatSwitch
  dsimp only
  rw [objection?_oneOf h, Option.map_none]

/-- An option that no text is given for is not given. -/
theorem has_of_text?_eq_none {name : String} (h : a.text? name = none) : a.has name = false := by
  have htexts : a.texts name = [] := List.getLast?_eq_none_iff.mp h
  rw [Arguments.has, List.any_eq_false]
  intro g hg
  rw [decide_eq_true_eq]
  intro hname
  have hnone := List.filterMap_eq_nil_iff.mp htexts g hg
  rw [if_pos hname] at hnone
  cases hnone

section

variable {front back : List String}
  (hfront : takesOptions checkShape.allSwitches none front = true)
  (h : checkShape.read s.files s.workingDir (front ++ back) = .ok (some a))
include hfront h

/-- Wherever options can stand, there can be one of the flags that tell how results are told. -/
theorem read_flag {w : Switch} (hw : w ∈ [quietSwitch, verboseSwitch, noFailSwitch]) :
    ∃ a', checkShape.read s.files s.workingDir (front ++ (w.name :: back)) = .ok (some a') ∧
      a.Inserts a' w "" := by
  simp only [List.mem_cons, List.not_mem_nil, or_false] at hw
  rcases hw with rfl | rfl | rfl
  · exact Shape.read_insert_flag (w := quietSwitch) rfl nodup_names (by decide) rfl (by decide)
      (by decide) (by decide) (by decide) hfront h
  · exact Shape.read_insert_flag (w := verboseSwitch) rfl nodup_names (by decide) rfl (by decide)
      (by decide) (by decide) (by decide) hfront h
  · exact Shape.read_insert_flag (w := noFailSwitch) rfl nodup_names (by decide) rfl (by decide)
      (by decide) (by decide) (by decide) hfront h

/-- Wherever options can stand, a format can be named if none is yet. -/
theorem read_format (hno : a.has "--output-format" = false) {format : String}
    (hformat : folded format ∈ Settings.formats.map folded) :
    ∃ a', checkShape.read s.files s.workingDir
        (front ++ ("--output-format" :: format :: back)) = .ok (some a') ∧
      a.Inserts a' formatSwitch format := by
  refine Shape.read_insert (w := formatSwitch) ["--output-format", format] rfl nodup_names
    (by decide) (fun hhas => ?_) (fun a' hinserts => ?_) (by decide) hfront ?_ h
  · cases hno.symm.trans hhas
  · rw [hinserts.text?_of_not_has hno]
    exact complaint?_format hformat
  · intro c
    have hword : readWord checkShape.allSwitches "--output-format".toList =
        .ok ([], some (formatSwitch, "--output-format")) := by decide
    have hoption : isOption "--output-format".toList = true := by decide
    have hdashes : "--output-format" ≠ "--" := by decide
    rw [List.cons_append, readWords, if_neg hdashes, if_pos hoption, hword]
    dsimp only
    rw [List.append_nil]
    rfl

end

/-- An option without a text asks for nothing but itself besides. -/
theorem ofArguments_flag {w : Switch} (h : a.Inserts a' w "")
    (hw : w.name ∉ ["--ignore", "--config", "--output-format", "--output-file"]) :
    CheckRequest.ofArguments a' =
      { CheckRequest.ofArguments a with
        flags := ⟨decide (w.name = "--dev") || a.has "--dev",
          decide (w.name = "--optional") || a.has "--optional", a.texts "--ignore"⟩
        quiet := decide (w.name = "--quiet") || a.has "--quiet"
        verbose := decide (w.name = "--verbose") || a.has "--verbose"
        noFail := decide (w.name = "--no-fail") || a.has "--no-fail" } := by
  simp only [List.mem_cons, List.not_mem_nil, or_false, not_or] at hw
  obtain ⟨hignore, hconfig, hformat, hfile⟩ := hw
  unfold CheckRequest.ofArguments
  rw [h.rest, h.has, h.has, h.has, h.has, h.has, h.texts_of_ne hignore, h.text?_of_ne hconfig,
    h.text?_of_ne hformat, h.text?_of_ne hfile]

theorem ofArguments_quiet (h : a.Inserts a' quietSwitch "") :
    CheckRequest.ofArguments a' = { CheckRequest.ofArguments a with quiet := true } :=
  ofArguments_flag h (by decide)

theorem ofArguments_verbose (h : a.Inserts a' verboseSwitch "") :
    CheckRequest.ofArguments a' = { CheckRequest.ofArguments a with verbose := true } :=
  ofArguments_flag h (by decide)

theorem ofArguments_noFail (h : a.Inserts a' noFailSwitch "") :
    CheckRequest.ofArguments a' = { CheckRequest.ofArguments a with noFail := true } :=
  ofArguments_flag h (by decide)

/-- A format is all that the request asks for besides. -/
theorem ofArguments_format {format : String} (hno : a.has "--output-format" = false)
    (h : a.Inserts a' formatSwitch format) :
    CheckRequest.ofArguments a' =
      { CheckRequest.ofArguments a with format := some (folded format) } := by
  have hhas : ∀ name, name ≠ "--output-format" → a'.has name = a.has name :=
    fun name hname => h.has_of_ne hname.symm
  have htext : ∀ name, name ≠ "--output-format" → a'.text? name = a.text? name :=
    fun name hname => h.text?_of_ne hname.symm
  have hformat : a'.text? "--output-format" = some format := h.text?_of_not_has hno
  unfold CheckRequest.ofArguments
  rw [h.rest, hhas "--dev" (by decide), hhas "--optional" (by decide),
    h.texts_of_ne (by decide : formatSwitch.name ≠ "--ignore"), htext "--config" (by decide),
    hformat, htext "--output-file" (by decide), hhas "--quiet" (by decide),
    hhas "--verbose" (by decide), hhas "--no-fail" (by decide)]
  rfl

/-! ## After settings are loaded -/

/-- What a check does once settings are loaded. -/
def checkBy (r : CheckRequest) (c : Settings) : Run Nat := do
  configureLoggers r c.logging
  let options ← Run.ofExcept (c.rule.merged r.flags)
  let format ← Run.ofExcept (r.formatWith c.output)
  proceed r ⟨c, options, format⟩

theorem check_eq_checkBy (r : CheckRequest) :
    check r = Run.loadSettings (r.settingsFile.map Path.ofString) >>= checkBy r := by
  rw [check_eq]
  unfold basisOf checkBy
  simp only [bind_assoc, pure_bind]

/-- Requests and settings come to the same together. -/
structure SameSight (r r' : CheckRequest) (c c' : Settings) : Prop where
  paths : r'.paths = r.paths
  flags : r'.flags = r.flags
  quiet : r'.quiet = r.quiet
  verbose : r'.verbose = r.verbose
  rule : c'.rule = c.rule
  logging : c'.logging = c.logging
  discovery : c'.discovery = c.discovery
  format : r'.formatWith c'.output = r.formatWith c.output
  file : r'.fileWith c'.output = r.fileWith c.output
  fails : r'.failsWith c'.output = r.failsWith c.output

theorem sameSight_noFail (h : c.output.failOnFindings.truthy = false) (file : Option String)
    (fails : Value) :
    SameSight r { r with noFail := true, settingsFile := file } c
      { c with output := { c.output with failOnFindings := fails } } where
  paths := rfl
  flags := rfl
  quiet := rfl
  verbose := rfl
  rule := rfl
  logging := rfl
  discovery := rfl
  format := rfl
  file := rfl
  fails := by
    unfold CheckRequest.failsWith
    rw [h, Bool.false_and, Bool.not_true, Bool.and_false]

theorem sameSight_format {format : String} (h : c.output.format = .text format)
    (hno : r.format = none) (file : Option String) (other : Value) :
    SameSight r { r with format := some (Text.lower format), settingsFile := file } c
      { c with output := { c.output with format := other } } where
  paths := rfl
  flags := rfl
  quiet := rfl
  verbose := rfl
  rule := rfl
  logging := rfl
  discovery := rfl
  format := by
    unfold CheckRequest.formatWith
    rw [h, hno]
  file := rfl
  fails := rfl

/-- What is set for output to be quiet or verbose is not looked at. -/
theorem sameSight_quiet (file : Option String) (quiet verbose : Value) :
    SameSight r { r with settingsFile := file } c
      { c with output := { c.output with quiet, verbose } } :=
  ⟨rfl, rfl, rfl, rfl, rfl, rfl, rfl, rfl, rfl, rfl⟩

/-- Nothing else is looked at once settings are loaded. -/
theorem checkBy_congr (h : SameSight r r' c c') : checkBy r' c' = checkBy r c := by
  have hdeliver : ∀ format file result,
      deliver format file r' result = deliver format file r result := by
    intro format file result
    unfold deliver
    rw [h.quiet, h.verbose]
  unfold checkBy configureLoggers CheckRequest.levelWith proceed CheckRequest.misusesFile checkFound
    checkFiles
  simp only [h.paths, h.flags, h.quiet, h.verbose, h.rule, h.logging, h.discovery, h.format, h.file,
    h.fails, hdeliver]

/-! ## What is kept does not matter then -/

theorem disregards_configureLoggers (r : CheckRequest) (l : LoggingSettings) :
    Disregards (configureLoggers r l) := by
  refine (Run.disregards_ofExcept _).bind fun level => ?_
  refine Run.disregards_get_bind (fun _ _ _ => rfl) fun s => ?_
  exact (Run.disregards_ofExcept _).bind fun _ => Run.disregards_modify fun _ _ _ => rfl

theorem disregards_filesOf (paths : List String) (d : DiscoverySettings) :
    Disregards (filesOf paths d) := by
  refine (Run.disregards_ofExcept _).bind fun _ => (Run.disregards_ofExcept _).bind fun _ => ?_
  refine (Run.disregards_ofExcept _).bind fun _ => (Run.disregards_ofExcept _).bind fun _ => ?_
  exact Run.disregards_get_bind (fun _ _ _ => rfl) fun _ => Run.disregards_ofExcept _

theorem disregards_echoAll (texts : List String) : Disregards (echoAll texts) := by
  induction texts with
  | nil => exact Run.disregards_pure ()
  | cons text texts ih => exact (Run.disregards_echo _).bind fun _ => ih

theorem disregards_complainAll (texts : List String) : Disregards (complainAll texts) := by
  induction texts with
  | nil => exact Run.disregards_pure ()
  | cons text texts ih => exact (Run.disregards_complain _).bind fun _ => ih

theorem disregards_writeText (path text : String) : Disregards (writeText path text) := by
  intro s kept env
  have hwrite : (s.besides kept env).files.write (s.besides kept env).workingDir path
      (Text.Utf8.encode text) = s.files.write s.workingDir path (Text.Utf8.encode text) := rfl
  rw [run_writeText, run_writeText, hwrite]
  cases s.files.write s.workingDir path (Text.Utf8.encode text) <;> rfl

theorem disregards_deliver (format : String) (file : Value) (r : CheckRequest)
    (result : CheckResult) : Disregards (deliver format file r result) := by
  unfold deliver writeJson printLines
  split
  · split
    · refine (Run.disregards_ofExcept _).bind fun path => ?_
      exact (disregards_writeText path _).bind fun _ => Run.disregards_warnAt _ _
    · exact Run.disregards_echo _
  · split
    · refine (disregards_echoAll _).bind fun _ => ?_
      exact (disregards_complainAll _).bind fun _ => disregards_complainAll _
    · exact Run.disregards_print _

theorem disregards_checkFound (r : CheckRequest) (b : Basis) (files : List Path) :
    Disregards (checkFound r b files) := by
  unfold checkFound
  split
  · split
    · exact (Run.disregards_print _).bind fun _ => Run.disregards_pure _
    · exact (Run.disregards_pure ()).bind fun _ => Run.disregards_pure _
  · refine (Run.disregards_check files b.options).bind fun result => ?_
    exact (disregards_deliver _ _ _ _).bind fun _ => Run.disregards_pure _

theorem disregards_checkBy (r : CheckRequest) (c : Settings) : Disregards (checkBy r c) := by
  refine (disregards_configureLoggers r c.logging).bind fun _ => ?_
  refine (Run.disregards_ofExcept _).bind fun options => (Run.disregards_ofExcept _).bind ?_
  intro format
  unfold proceed
  split
  · exact Run.disregards_throw _
  · exact (disregards_filesOf _ _).bind fun files => disregards_checkFound r _ files

theorem disregards_refuse (shape : Shape) (complaint : Complaint) :
    Disregards (refuse shape complaint) := by
  unfold refuse
  split
  · exact (Run.disregards_complain _).bind fun _ =>
      (Run.disregards_complain _).bind fun _ => Run.disregards_pure _
  · exact (Run.disregards_pure ()).bind fun _ =>
      (Run.disregards_complain _).bind fun _ => Run.disregards_pure _

/-! ## Two command lines -/

/-- A command line is read, and the settings that it asks for are loaded. -/
structure Loads (s : Session) (words : List String) (a : Arguments) (c : Settings) (t : Session) :
    Prop where
  read : checkShape.read s.files s.workingDir words = .ok (some a)
  load : (Run.loadSettings ((CheckRequest.ofArguments a).settingsFile.map Path.ofString)).run s =
    (.ok c, t)

/-- What becomes of a fault: a refusal is told of. -/
def settleFault : Fault → Run Nat
  | .usage message => refuse checkShape (.other message)
  | f => throw f

theorem disregards_settleFault (f : Fault) : Disregards (settleFault f) := by
  unfold settleFault
  split
  · exact disregards_refuse _ _
  · exact Run.disregards_throw _

theorem Loads.run_check (h : Loads s words a c t) :
    (run ("check" :: words)).run s =
      (tryCatch (checkBy (.ofArguments a) c) settleFault).run t := by
  rw [run_check_of_read h.read, check_eq_checkBy, run_bind_of_ok h.load, Run.run_tryCatch]
  match (checkBy (.ofArguments a) c).run t with
  | (.ok status, u) => rfl
  | (.error f, u) => cases f <;> rfl

/-- Two command lines do the same if what they ask for and what is set come to the same together;
the settings that are kept and the environment may differ. -/
theorem Loads.run_check_congr (h : Loads s words a c t)
    (h' : Loads s' words' a' c' (t.besides kept env))
    (hsame : SameSight (.ofArguments a) (.ofArguments a') c c') :
    (run ("check" :: words')).run s' =
      (((run ("check" :: words)).run s).1,
        ((run ("check" :: words)).run s).2.besides kept env) := by
  have hdisregards := (disregards_checkBy (.ofArguments a) c).tryCatch disregards_settleFault
  rw [h.run_check, h'.run_check, checkBy_congr hsame, hdisregards]

/-- Two command lines are read, and the settings loaded that they ask for; the sessions behind that
differ in the settings that are kept and in the environment at most.  In each of these cases the
second command line does what the first does, and does it in the same way, whatever the paths,
settings files and flags of both:

* findings are set not to make the check fail, and the second has `--no-fail` instead;
* a format is set and not given, and the second is given it instead;
* all that differs is what is set for output to be quiet or verbose.

Wherever options can stand in the first command line, each of the four flags can be put in, the
format unless one is given, and asks for nothing but itself besides. -/
theorem run_check_settings_as_flags (h : Loads s words a c t)
    (h' : Loads s' words' a' c' (t.besides kept env)) :
    let r := CheckRequest.ofArguments a
    let r' := CheckRequest.ofArguments a'
    let DoSame := (run ("check" :: words')).run s' =
      (((run ("check" :: words)).run s).1, ((run ("check" :: words)).run s).2.besides kept env)
    (∀ file fails, c.output.failOnFindings.truthy = false →
      r' = { r with noFail := true, settingsFile := file } →
      c' = { c with output := { c.output with failOnFindings := fails } } → DoSame) ∧
    (∀ file format other, c.output.format = .text format → r.format = none →
      r' = { r with format := some (Text.lower format), settingsFile := file } →
      c' = { c with output := { c.output with format := other } } → DoSame) ∧
    (∀ file quiet verbose, r' = { r with settingsFile := file } →
      c' = { c with output := { c.output with quiet, verbose } } → DoSame) ∧
    ∀ front back, words = front ++ back →
      takesOptions checkShape.allSwitches none front = true →
        (∃ b, checkShape.read s.files s.workingDir (front ++ "--no-fail" :: back) = .ok (some b) ∧
          CheckRequest.ofArguments b = { r with noFail := true }) ∧
        (∃ b, checkShape.read s.files s.workingDir (front ++ "--quiet" :: back) = .ok (some b) ∧
          CheckRequest.ofArguments b = { r with quiet := true }) ∧
        (∃ b, checkShape.read s.files s.workingDir (front ++ "--verbose" :: back) = .ok (some b) ∧
          CheckRequest.ofArguments b = { r with verbose := true }) ∧
        (r.format = none → ∀ format ∈ Settings.formats, ∃ b,
          checkShape.read s.files s.workingDir (front ++ "--output-format" :: format :: back) =
            .ok (some b) ∧
          CheckRequest.ofArguments b = { r with format := some format } ∧
          Text.lower format = format) := by
  intro r r' DoSame
  have hdo : SameSight r r' c c' → DoSame := h.run_check_congr h'
  refine ⟨fun file fails hfails hr hc => hdo ?_,
    fun file format other hformat hno hr hc => hdo ?_, fun file quiet verbose hr hc => hdo ?_, ?_⟩
  · rw [hr, hc]
    exact sameSight_noFail hfails file fails
  · rw [hr, hc]
    exact sameSight_format hformat hno file other
  · rw [hr, hc]
    exact sameSight_quiet file quiet verbose
  · rintro front back rfl hfront
    obtain ⟨b₁, hread₁, hinserts₁⟩ := read_flag hfront h.read (w := noFailSwitch) (by decide)
    obtain ⟨b₂, hread₂, hinserts₂⟩ := read_flag hfront h.read (w := quietSwitch) (by decide)
    obtain ⟨b₃, hread₃, hinserts₃⟩ := read_flag hfront h.read (w := verboseSwitch) (by decide)
    refine ⟨⟨b₁, hread₁, ofArguments_noFail hinserts₁⟩, ⟨b₂, hread₂, ofArguments_quiet hinserts₂⟩,
      ⟨b₃, hread₃, ofArguments_verbose hinserts₃⟩, fun hno format hformat => ?_⟩
    have hall : ∀ format ∈ Settings.formats, folded format = format ∧ Text.lower format = format :=
      by decide +kernel
    obtain ⟨hfolded, hlower⟩ := hall format hformat
    have hhas : a.has "--output-format" = false :=
      has_of_text?_eq_none (Option.map_eq_none_iff.mp hno)
    obtain ⟨b, hread, hinserts⟩ := read_format hfront h.read hhas (List.mem_map_of_mem hformat)
    have hrequest := ofArguments_format hhas hinserts
    rw [hfolded] at hrequest
    exact ⟨b, hread, hrequest, hlower⟩

/-- A session with a source file that imports `x`, and settings by which findings do not make a
check fail. -/
def lenientSession : Session :=
  { withEntry "a.js" undeclaredImport with
    settings := some { output := { failOnFindings := .bool false } } }

/-- What is set gives the same as the flag without it. -/
theorem run_check_settings_as_flags_lenient :
    ∃ a t, Loads lenientSession ["a.js", "--quiet"]
        { given := [(quietSwitch, "")], rest := ["a.js"] }
        { output := { failOnFindings := .bool false } } lenientSession ∧
      Loads (lenientSession.besides (some {}) []) ["a.js", "--quiet", "--no-fail"] a {}
        (lenientSession.besides (some {}) []) ∧
      (run ["check", "a.js", "--quiet"]).run lenientSession = (.ok succeeded, t) ∧
      (run ["check", "a.js", "--quiet", "--no-fail"]).run (lenientSession.besides (some {}) []) =
        (.ok succeeded, t.besides (some {}) []) := by
  have hset : Loads lenientSession ["a.js", "--quiet"]
      { given := [(quietSwitch, "")], rest := ["a.js"] }
      { output := { failOnFindings := .bool false } } lenientSession :=
    ⟨rfl, Run.loadSettings_of_kept rfl⟩
  have hgiven : Loads (lenientSession.besides (some {}) []) ["a.js", "--quiet", "--no-fail"]
      { given := [(quietSwitch, ""), (noFailSwitch, "")], rest := ["a.js"] } {}
      (lenientSession.besides (some {}) []) :=
    ⟨rfl, Run.loadSettings_of_kept rfl⟩
  have hends : Run.endsIn (run ["check", "a.js", "--quiet"]) lenientSession
      (fun status _ => status = succeeded) = true := by decide +kernel
  obtain ⟨status, t, hrun, hstatus⟩ := Run.exists_of_endsIn hends
  obtain rfl := of_decide_eq_true hstatus
  have hsame := (run_check_settings_as_flags hset hgiven).1 none (.bool true) rfl rfl rfl
  rw [hrun] at hsame
  exact ⟨_, t, hset, hgiven, hrun, hsame⟩

/-- A session with a source file that imports `x`, and a settings file that sets output to be
quiet. -/
def quietSession : Session where
  clock := ⟨"", ""⟩
  files := ⟨[(["a.js"], undeclaredImport),
    (["c.json"], .file (Text.Utf8.encode "\x7b\"output\": \x7b\"quiet\": true\x7d\x7d"))]⟩

/-- That output is set to be quiet does not make it so: one line per finding is printed with the
flag and not with the setting. -/
theorem run_check_quiet_set :
    ∃ c t status v status' v',
      (Run.loadSettings (some (.ofString "c.json"))).run quietSession = (.ok c, t) ∧
      c.output.quiet.truthy = true ∧
      (run ["check", "a.js", "--config", "c.json"]).run quietSession = (.ok status, v) ∧
      (run ["check", "a.js", "--quiet"]).run quietSession = (.ok status', v') ∧
      v'.output = "a.js:1:8: Module 'x' is not listed as dependency in package.json\n" ∧
      v.output ≠ v'.output := by
  have hload : Run.endsIn (Run.loadSettings (some (.ofString "c.json"))) quietSession
      (fun c _ => c.output.quiet.truthy) = true := by decide +kernel
  have hset : Run.endsIn (run ["check", "a.js", "--config", "c.json"]) quietSession
      (fun _ v => v.output ≠
        "a.js:1:8: Module 'x' is not listed as dependency in package.json\n") = true := by
    decide +kernel
  have hgiven : Run.endsIn (run ["check", "a.js", "--quiet"]) quietSession
      (fun _ v => v.output =
        "a.js:1:8: Module 'x' is not listed as dependency in package.json\n") = true := by
    decide +kernel
  obtain ⟨c, t, hloads, hquiet⟩ := Run.exists_of_endsIn hload
  obtain ⟨status, v, hrun, houtput⟩ := Run.exists_of_endsIn hset
  obtain ⟨status', v', hrun', houtput'⟩ := Run.exists_of_endsIn hgiven
  have hlines := of_decide_eq_true houtput'
  exact ⟨c, t, status, v, status', v', hloads, hquiet, hrun, hrun', hlines,
    fun heq => of_decide_eq_true houtput (heq.trans hlines)⟩

end ImportAudit.Command
