/-
# ImportAudit.Proofs.Command.Sample — writing a sample of a settings file.

The command that writes a sample ends in one of four ways (`Writes`): something is there already and
stays as it is, or the sample is written and that is said or cannot be said, or nothing can be
written.  So whichever way it ends, no place differs but the one that the path leads to, and what is
there is overwritten only by force (`Writes.entry?_eq`).  A file of JSON or YAML that the sample was
written to gives the settings that hold by default and is valid (`givesDefaults_of_sample`).  A file
of TOML holds the same text then, and gives none (`givesNothing_of_sample`).
-/
import ImportAudit.Proofs.Command.Refusals
import ImportAudit.Proofs.Command.Validation
import ImportAudit.Proofs.Files.Normal
import ImportAudit.Proofs.Files.Rewriting
import ImportAudit.Proofs.Manifest.Ascent
import ImportAudit.Proofs.Session.Reread
import ImportAudit.Proofs.Settings.Sample

namespace ImportAudit.Command

open Files (Place Tree)
open Run (run_bind run_bind_of_ok run_bind_eq_ok_iff)

variable {s t u v : Session} {words : List String} {a : Arguments} {path : Path}

/-! ## Writing a sample -/

/-- What is said after a sample was written. -/
def writtenText (path : Path) : String := "✅ Sample configuration written to " ++ path.toString

/-- What is told if something is there that is not to be overwritten. -/
def takenText (path : Path) : String :=
  "Error: " ++ (path.toString ++ " already exists (use --force to overwrite)")

/-- The place that a path leads to may be written to: there is nothing yet, or a file and it is to
be overwritten. -/
structure MayWrite (force : Bool) (path : Path) (s : Session) (place : Place) : Prop where
  leads : s.files.locate true true s.workingDir path.toString = .ok place
  notDirectory : s.files.entry? place ≠ some .directory
  free : s.files.entry? place = none ∨ force = true

/-- What is there may be written to only by force. -/
theorem MayWrite.forced {force : Bool} {place : Place} (h : MayWrite force path s place)
    (hsound : s.files.Sound) (hdir : s.files.entry? s.workingDir = some .directory)
    (hentry : s.files.hasEntry s.workingDir path.toString = .ok true) : force = true := by
  rw [Tree.hasEntry_of_locate hsound hdir h.leads] at hentry
  rcases h.free with hnone | hforce
  · rw [hnone] at hentry
    cases hentry
  · exact hforce

/-- The files of a session with the sample in a place. -/
def withSample (s : Session) (place : Place) : Tree :=
  s.files.put place (.file (Text.Utf8.encode (Settings.sample ++ "\n")))

/-- The ways in which writing a sample ends. -/
inductive Writes (force : Bool) (path : Path) (s : Session) : Except Fault Nat × Session → Prop
  | taken (hentry : s.files.hasEntry s.workingDir path.toString = .ok true)
      (hkeep : force = false) :
      Writes force path s (.ok failed,
        { s with errors := s.errors ++ Text.withoutCommands (takenText path) ++ "\n" })
  | written {place : Place} {shown : String} (hmay : MayWrite force path s place)
      (hshown : Console.paragraph Run.outputWidth (writtenText path) = .ok shown) :
      Writes force path s (.ok succeeded,
        { s with files := withSample s place, output := s.output ++ shown })
  | unsaid {place : Place} {f : Fault} (hmay : MayWrite force path s place)
      (hfault : Console.paragraph Run.outputWidth (writtenText path) = .error f) :
      Writes force path s (.error f, { s with files := withSample s place })
  | refused (f : Files.Fault)
      (hfree : s.files.hasEntry s.workingDir path.toString = .ok true → force = true)
      (hrefused : ¬s.files.IsWritable s.workingDir path.toString) :
      Writes force path s (.error (.files f), s)

/-- A sample that is written is told of, if that can be said. -/
theorem writes_say {force : Bool} {place : Place} (hmay : MayWrite force path s place) :
    Writes force path s ((Run.say (writtenText path) >>= fun _ => pure succeeded : Run Nat).run
      { s with files := withSample s place }) := by
  cases hsaid : Console.paragraph Run.outputWidth (writtenText path) with
  | ok shown =>
      rw [run_bind_of_ok (run_say_of_ok hsaid _)]
      exact .written hmay hsaid
  | error f =>
      rw [run_bind, run_say_of_error hsaid]
      exact .unsaid hmay hsaid

theorem writes_writeSample (hsound : s.files.Sound)
    (hdir : s.files.entry? s.workingDir = some .directory) (force : Bool) (path : Path) :
    Writes force path s ((writeSample force path).run s) := by
  unfold writeSample
  rw [Run.run_get_bind]
  cases hentry : s.files.hasEntry s.workingDir path.toString with
  | error f =>
      refine .refused f (fun hpresent => ?_) ?_
      · rw [hentry] at hpresent
        cases hpresent
      · rintro ⟨place, hlocate, -⟩
        rw [Tree.hasEntry_of_locate hsound hdir hlocate] at hentry
        cases hentry
  | ok isTaken =>
      have hasked : (Run.ofExcept ((Except.ok isTaken).mapError Fault.files)).run s =
          (.ok isTaken, s) := rfl
      rw [run_bind_of_ok hasked]
      by_cases hkeep : (isTaken && !force) = true
      · rw [if_pos hkeep]
        rw [Bool.and_eq_true, Bool.not_eq_true'] at hkeep
        obtain ⟨rfl, hkeep⟩ := hkeep
        exact .taken hentry hkeep
      · rw [if_neg hkeep, run_bind, run_writeText]
        match hwrite : s.files.write s.workingDir path.toString
            (Text.Utf8.encode (Settings.sample ++ "\n")) with
        | .error f =>
            refine .refused f (fun hpresent => ?_) fun ⟨place, hlocate, hdirectory⟩ => ?_
            · cases Except.ok.inj (hentry.symm.trans hpresent)
              simpa using hkeep
            · rw [Tree.write_eq_ok_iff.mpr ⟨place, hlocate, hdirectory, rfl⟩] at hwrite
              cases hwrite
        | .ok files =>
            obtain ⟨place, hlocate, hdirectory, rfl⟩ := Tree.write_eq_ok_iff.mp hwrite
            rw [Tree.hasEntry_of_locate hsound hdir hlocate] at hentry
            have hmay : MayWrite force path s place :=
              ⟨hlocate, hdirectory, by
                cases Except.ok.inj hentry
                simpa [or_iff_not_imp_left, Option.isSome_iff_ne_none] using hkeep⟩
            exact writes_say hmay

namespace Writes

variable {force : Bool} {result : Except Fault Nat}

/-- Only the place that the path leads to may differ afterwards, and what is there only by force. -/
theorem entry?_eq (h : Writes force path s (result, v)) (place : Place) :
    v.files.entry? place = s.files.entry? place ∨
      s.files.locate true true s.workingDir path.toString = .ok place ∧
        (s.files.entry? place = none ∨ force = true) := by
  have hput : ∀ {q : Place}, MayWrite force path s q →
      Tree.entry? (withSample s q) place = s.files.entry? place ∨
        s.files.locate true true s.workingDir path.toString = .ok place ∧
          (s.files.entry? place = none ∨ force = true) := by
    intro q hmay
    by_cases hq : place = q
    · subst hq
      exact .inr ⟨hmay.leads, hmay.free⟩
    · left
      rw [withSample, Tree.entry?_put _ (Tree.ne_nil_of_not_directory hmay.notDirectory),
        if_neg hq]
  cases h with
  | taken => exact .inl rfl
  | written hmay => exact hput hmay
  | unsaid hmay => exact hput hmay
  | refused => exact .inl rfl

/-- The sample is written, and that is said, exactly if nothing is in the way. -/
theorem succeeds_iff (hsound : s.files.Sound) (hdir : s.files.entry? s.workingDir = some .directory)
    (h : Writes force path s (result, v)) :
    result = .ok succeeded ↔
      (s.files.hasEntry s.workingDir path.toString = .ok true → force = true) ∧
        s.files.IsWritable s.workingDir path.toString ∧
        Console.prints (writtenText path) = true := by
  cases h with
  | taken hentry hkeep =>
      refine ⟨nofun, fun hall => ?_⟩
      rw [hall.1 hentry] at hkeep
      cases hkeep
  | written hmay hshown =>
      have hprints := prints_of_say (run_say_of_ok hshown s)
      have hwritable : s.files.IsWritable s.workingDir path.toString :=
        ⟨_, hmay.leads, hmay.notDirectory⟩
      exact ⟨fun _ => ⟨hmay.forced hsound hdir, hwritable, hprints⟩, fun _ => rfl⟩
  | unsaid hmay hfault =>
      refine ⟨nofun, fun hall => ?_⟩
      obtain ⟨shown, hshown⟩ := Run.exists_paragraph hall.2.2 Run.outputWidth
      rw [hfault] at hshown
      cases hshown
  | refused f _ hrefused => exact ⟨nofun, fun hall => absurd hall.2.1 hrefused⟩

/-- Where the sample was written the path is read as the sample. -/
theorem read_of_succeeded (hsound : s.files.Sound)
    (hdir : s.files.entry? s.workingDir = some .directory)
    (h : Writes force path s (.ok succeeded, v)) :
    v = { s with files := v.files, output := v.output } ∧
      v.files.read v.workingDir path.toString =
        .ok (Text.Utf8.encode (Settings.sample ++ "\n")) := by
  cases h with
  | written hmay hshown =>
      refine ⟨rfl, Tree.read_of_write hsound hdir ?_⟩
      exact Tree.write_eq_ok_iff.mpr ⟨_, hmay.leads, hmay.notDirectory, rfl⟩

/-- What is there already stays, without force. -/
theorem eq_of_taken (hsound : s.files.Sound)
    (hdir : s.files.entry? s.workingDir = some .directory)
    (h : Writes false path s (result, v))
    (hentry : s.files.hasEntry s.workingDir path.toString = .ok true) :
    result = .ok failed ∧
      v = { s with errors := s.errors ++ Text.withoutCommands (takenText path) ++ "\n" } := by
  cases h with
  | taken => exact ⟨rfl, rfl⟩
  | written hmay => cases hmay.forced hsound hdir hentry
  | unsaid hmay => cases hmay.forced hsound hdir hentry
  | refused f hfree => cases hfree hentry

theorem isOther {f : Fault} (h : Writes force path s (.error f, v)) : f.IsOther := by
  cases h with
  | unsaid hmay hfault => exact Console.isOther_of_paragraph hfault
  | refused f => exact nofun

end Writes

/-- A command line that is read and asks for a sample ends as writing it does. -/
theorem writes_run_init (hread : initShape.read s.files s.workingDir words = .ok (some a))
    (hsound : s.files.Sound) (hdir : s.files.entry? s.workingDir = some .directory) :
    Writes (a.has "--force") (.ofString (initShape.operand a)) s
      ((run ("config" :: "init" :: words)).run s) := by
  have hwrites := writes_writeSample hsound hdir (a.has "--force") (.ofString (initShape.operand a))
  rw [run_config_init, runInit,
    run_perform (fun a => writeSample (a.has "--force") (.ofString (initShape.operand a))) hread]
  match hrun : (writeSample (a.has "--force") (.ofString (initShape.operand a))).run s with
  | (.ok status, v) => rwa [hrun] at hwrites
  | (.error f, v) =>
      rw [hrun] at hwrites
      have hother := hwrites.isOther
      cases f with
      | usage message => exact absurd rfl (hother message)
      | _ => exact hwrites

/-- A command line that is refused, as one that names a directory is, leaves all but what is told as
it is. -/
theorem run_init_refused {c : Complaint}
    (hread : initShape.read s.files s.workingDir words = .error c) :
    ∃ errors, (run ("config" :: "init" :: words)).run s = (.ok refused, { s with errors }) := by
  rw [run_config_init]
  unfold runInit perform withArguments
  rw [Run.run_get_bind, hread]
  dsimp only
  unfold refuse
  cases c.isOfCommand <;> exact ⟨_, rfl⟩

/-! ## Reading what was written -/

/-- What becomes of the value of a file, or of the fault in its place, which is reported and warned
of. -/
def settleValue (path : Path) : Except Fault Value → Run Value
  | .ok data => pure data
  | .error f => do
    Run.report (.ofConfiguration path.toString f)
    Run.warn (Run.unreadText path f)
    pure .null

theorem run_readSettingsFile
    (hentry : t.files.hasEntry t.workingDir path.toString = .ok true) :
    (Run.readSettingsFile path).run t =
      (settleValue path (Settings.readFile t.files t.workingDir path)).run t := by
  unfold Run.readSettingsFile
  rw [Run.run_get_bind, hentry]
  show (match Settings.readFile t.files t.workingDir path with
    | .ok data => pure data
    | .error f => do
      Run.report (.ofConfiguration path.toString f)
      Run.warn (Run.unreadText path f)
      pure .null : Run Value).run t = _
  cases Settings.readFile t.files t.workingDir path <;> rfl

/-- What cannot be read gives null, if it gives anything. -/
theorem null_of_settleValue {f : Fault} {data : Value}
    (h : (settleValue path (.error f)).run t = (.ok data, u)) : data = .null := by
  obtain ⟨_, v, -, hwarn⟩ := run_bind_eq_ok_iff.mp h
  obtain ⟨_, w, -, hend⟩ := run_bind_eq_ok_iff.mp hwarn
  cases hend
  rfl

/-- What cannot be read gives null, if the warning can be printed. -/
theorem exists_settleValue {f : Fault} (h : Console.prints (Run.unreadText path f) = true)
    (t : Session) : ∃ u, (settleValue path (.error f)).run t = (.ok .null, u) := by
  have hreported : ∃ r, (Run.report (.ofConfiguration path.toString f)).run t = (.ok (), r) :=
    ⟨_, rfl⟩
  obtain ⟨r, hreport⟩ := hreported
  obtain ⟨u, hwarn⟩ := (Run.warn_returns_iff (Run.unreadText path f) r).mpr h
  unfold settleValue
  exact ⟨u, by rw [run_bind_of_ok hreport, run_bind_of_ok hwarn]; rfl⟩

/-- A file that gives null is not found valid. -/
theorem run_validate_null {text : String}
    (h : (Run.readSettingsFile (.ofString text)).run t = (.ok .null, u)) :
    ∃ v, (validate text).run t = (.ok failed, v) := by
  unfold validate
  rw [run_bind_of_ok h]
  exact ⟨_, rfl⟩

/-- A file gives the settings that hold by default: it is read as a mapping and nothing is told, of
this mapping the settings are built wherever the environment overrides nothing, and a command line
that names the file finds it valid wherever the environment does not spoil the defaults.  The file is
named by each text of its path that leads to something, also if it looks like an option. -/
structure GivesDefaults (t : Session) (path : Path) : Prop where
  reads : ∃ entries, (Run.readSettingsFile path).run t = (.ok (.mapping entries), t) ∧
    ∀ u : Session, u.environment.apply {} = {} →
      (Run.buildSettings (.mapping entries)).run u = (.ok {}, u)
  named : ∀ text, Path.ofString text = path → t.files.Present t.workingDir text →
    validateShape.read t.files t.workingDir ["--", text] = .ok (some { rest := [text] })
  valid : ∀ words a, validateShape.read t.files t.workingDir words = .ok (some a) →
    Path.ofString (validateShape.operand a) = path →
    (t.environment.apply {}).objections = .ok [] →
    (run ("config" :: "validate" :: words)).run t =
      (.ok succeeded, { t with output := t.output ++ (validText ++ "\n") })

/-- What is wrong with the sample as TOML: its first line is a brace, which begins a name. -/
def sampleFault : Fault := .toml (.at .lineEndsInKey 1 2 1)

/-- A file gives no settings: it cannot be read, so it never gives a mapping, and no command line
that names the file finds it valid; each fails if what is wrong can be printed. -/
structure GivesNothing (t : Session) (path : Path) : Prop where
  unread : Settings.readFile t.files t.workingDir path = .error sampleFault
  reads : ∀ entries u, (Run.readSettingsFile path).run t ≠ (.ok (.mapping entries), u)
  invalid : ∀ words a, validateShape.read t.files t.workingDir words = .ok (some a) →
    Path.ofString (validateShape.operand a) = path →
    (∀ u, (run ("config" :: "validate" :: words)).run t ≠ (.ok succeeded, u)) ∧
    (Console.prints (Run.unreadText path sampleFault) = true →
      ∃ u, (run ("config" :: "validate" :: words)).run t = (.ok failed, u))

/-- A text that leads to something leads to the file that its path is read from. -/
theorem find_of_present {bytes : List UInt8} {text : String}
    (hbytes : t.files.read t.workingDir (Path.ofString text).toString = .ok bytes)
    (hpresent : t.files.Present t.workingDir text) :
    t.files.find t.workingDir text = .ok (.file bytes) := by
  obtain ⟨place, hlocate, hfile⟩ := Tree.read_eq_ok_iff.mp hbytes
  obtain ⟨e, hfind⟩ := hpresent
  unfold Tree.find at hfind ⊢
  split at hfind
  · cases hfind
  · next q hq =>
      rw [Tree.locate_normal hq] at hlocate
      obtain rfl := Except.ok.inj hlocate
      rw [hfile]

/-- Words that give nothing but the name of a file name the file to be validated. -/
theorem read_validate {bytes : List UInt8} {text : String}
    (hfind : t.files.find t.workingDir text = .ok (.file bytes))
    (hwords : readWords validateShape.allSwitches validateShape.mixes {} none words =
      .ok { rest := [text] }) :
    validateShape.read t.files t.workingDir words = .ok (some { rest := [text] }) := by
  have hnone : validateShape.complaint? t.files t.workingDir { rest := [text] } = none := by
    show ((Use.objection? t.files t.workingDir (.file true) text).map _).or none = none
    unfold Use.objection?
    rw [hfind]
    rfl
  have hhelp : Arguments.has { rest := [text] } helpSwitch.name = false := rfl
  unfold Shape.read
  rw [hwords]
  dsimp only
  rw [hhelp, if_neg Bool.false_ne_true, hnone]

section

variable {form : Settings.Form}

theorem givesDefaults_of_sample (hform : Settings.formOf? path = some form) (hne : form ≠ .toml)
    (hbytes : t.files.read t.workingDir path.toString =
      .ok (Text.Utf8.encode (Settings.sample ++ "\n"))) : GivesDefaults t path := by
  have hvalue : Settings.readFile t.files t.workingDir path = .ok Settings.sampleValue :=
    (Settings.readFile_encode Settings.return_notMem_sample hbytes hform).trans
      (Settings.valueOf_sample hne)
  have hread : (Run.readSettingsFile path).run t = (.ok Settings.sampleValue, t) := by
    rw [run_readSettingsFile (Tree.hasEntry_of_read hbytes), hvalue]
    rfl
  have hbuild : ∀ u : Session, (Run.buildSettings Settings.sampleValue).run u =
      (.ok (u.environment.apply {}), u) := by
    intro u
    rw [Run.run_buildSettings Settings.ofFile_sampleValue Run.shownAs_nil, String.append_empty]
  refine ⟨⟨_, hread, fun u henv => ?_⟩, ?_, ?_⟩
  · exact (hbuild u).trans (by rw [henv])
  · rintro text rfl hpresent
    exact read_validate (find_of_present hbytes hpresent) rfl
  · intro words a hwords hnamed hnone
    rw [run_config_validate, runValidate,
      run_perform (fun a => validate (validateShape.operand a)) hwords,
      run_validate_nil (hnamed ▸ hread) (hbuild t) hnone]

theorem givesNothing_of_sample (hform : Settings.formOf? path = some .toml)
    (hbytes : t.files.read t.workingDir path.toString =
      .ok (Text.Utf8.encode (Settings.sample ++ "\n"))) : GivesNothing t path := by
  have hvalue : Settings.readFile t.files t.workingDir path = .error sampleFault :=
    (Settings.readFile_encode Settings.return_notMem_sample hbytes hform).trans
      Settings.valueOf_sample_toml
  have hread : (Run.readSettingsFile path).run t =
      (settleValue path (.error sampleFault)).run t := by
    rw [run_readSettingsFile (Tree.hasEntry_of_read hbytes), hvalue]
  refine ⟨hvalue, ?_, fun words a hwords hnamed => ⟨fun u hrun => ?_, fun hprints => ?_⟩⟩
  · intro entries u hrun
    rw [hread] at hrun
    cases null_of_settleValue hrun
  · rw [run_config_validate, runValidate,
      run_perform (fun a => validate (validateShape.operand a)) hwords] at hrun
    -- a status comes of null, or of a refusal
    match hend : (validate (validateShape.operand a)).run t with
    | (.ok status, v) =>
        rw [hend] at hrun
        cases hrun
        obtain ⟨data, w, hdata, hrest⟩ := run_bind_eq_ok_iff.mp hend
        rw [hnamed, hread] at hdata
        obtain rfl := null_of_settleValue hdata
        cases hrest
    | (.error f, v) =>
        rw [hend] at hrun
        cases f <;> cases hrun
  · obtain ⟨u, hnull⟩ := exists_settleValue hprints t
    obtain ⟨v, hfails⟩ := run_validate_null (hnamed ▸ hread.trans hnull)
    refine ⟨v, ?_⟩
    rw [run_config_validate, runValidate,
      run_perform (fun a => validate (validateShape.operand a)) hwords, hfails]

end

/-- A session without files. -/
def emptySession : Session where
  clock := ⟨"", ""⟩

theorem sound_emptySession : emptySession.files.Sound := ⟨.nil, nofun, nofun, nofun⟩

/-- Nothing is in the way of a file of a short name. -/
theorem mayWrite_emptySession {name : String}
    (hlocate : emptySession.files.locate true true [] name = .ok [name]) :
    emptySession.files.IsWritable [] name :=
  ⟨[name], hlocate, nofun⟩

end ImportAudit.Command
