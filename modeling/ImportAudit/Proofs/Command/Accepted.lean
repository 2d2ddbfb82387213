/-
# ImportAudit.Proofs.Command.Accepted — a check with settings that are accepted.

Let settings be built of a native file in any environment, and let nothing be objected to in them.
Then the loggers are set up by their level, their options are merged with any flags, and their
extensions stand for endings (`accepted_runs`).  Two things are not looked at when settings are
judged, and can keep a check from finding its files: the directories that are excluded, and a list
of settings that a file puts in the place of those that the section of the rule has.
-/
import ImportAudit.Proofs.Command.Discovery
import ImportAudit.Proofs.Command.Output
import ImportAudit.Proofs.Files.Normal
import ImportAudit.Proofs.Session.Unknown
import ImportAudit.Proofs.Settings.Accepted

namespace ImportAudit

open Files.Discovery (Excludes)

/-! ## Setting up the loggers -/

/-- A level has a threshold. -/
theorem Log.Severity.exists_threshold {name : String} (h : Text.upper name ∈ Settings.levels) :
    ∃ threshold, Log.Severity.threshold name = .ok threshold := by
  have hlayouts : ∀ level ∈ Settings.levels, layouts.lookup level = none := by decide
  unfold threshold
  dsimp only
  rw [hlayouts _ h]
  exact ⟨_, rfl⟩

namespace Command

open Run (run_bind_of_ok)

variable {s t : Session}

/-- The loggers are set up by the text of a level, and by the one that asks for everything. -/
theorem run_configureLoggers {logging : LoggingSettings} {level : String}
    (htext : logging.level = .text level) (hlevel : Text.upper level ∈ Settings.levels)
    (r : CheckRequest) (u : Session) :
    ∃ v, (configureLoggers r logging).run u = (.ok (), v) := by
  have hverbose : Text.upper "DEBUG" ∈ Settings.levels := by decide +kernel
  obtain ⟨name, hname, hnamed⟩ : ∃ name, r.levelWith logging = .ok name ∧
      Text.upper name ∈ Settings.levels := by
    unfold CheckRequest.levelWith
    rw [htext]
    cases r.verbose with
    | true => exact ⟨"DEBUG", rfl, hverbose⟩
    | false => exact ⟨level, rfl, hlevel⟩
  obtain ⟨threshold, hthreshold⟩ := Log.Severity.exists_threshold hnamed
  have hconfigured : ∃ loggers,
      u.loggers.configure name logging.json.truthy = .ok loggers := by
    simp only [Log.Loggers.configure, Log.Loggers.configureEach, hthreshold]
    exact ⟨_, rfl⟩
  obtain ⟨loggers, hloggers⟩ := hconfigured
  have hmapped : (u.loggers.configure name logging.json.truthy).mapError Fault.log = .ok loggers :=
    congrArg (Except.mapError Fault.log) hloggers
  refine ⟨{ u with loggers }, ?_⟩
  unfold configureLoggers
  rw [Run.run_ofExcept_bind_eq_ok_iff]
  refine ⟨name, hname, ?_⟩
  rw [Run.run_get_bind, Run.run_ofExcept_bind_eq_ok_iff]
  exact ⟨loggers, hmapped, Run.run_modify _ _⟩

/-! ## Finding the files -/

/-- The files are found if the extensions are texts, the directories can be excluded, and no path is
refused. -/
theorem run_filesOf_returns_iff {d : DiscoverySettings} {texts : List String}
    (hlacks : d.guise.lacks "extensions" = false) (htruthy : d.extensions.truthy = true)
    (htexts : d.extensions.items = .ok (texts.map .text)) (paths : List String) (u : Session) :
    (∃ files, (filesOf paths d).run u = (.ok files, u)) ↔
      d.guise.lacks "exclude_dirs" = false ∧ Excludes d.excluded ∧
        ∀ p ∈ paths, ¬IsRefused u p := by
  have hendings := Files.Discovery.endings_of_items htruthy htexts
  simp only [run_filesOf_eq_ok_iff, ← Files.Discovery.excluded_eq_ok_iff]
  constructor
  · rintro ⟨files, -, -, hnames, endings, excluded, -, hexcluded, hfind⟩
    exact ⟨hnames, ⟨excluded, hexcluded⟩, Files.Discovery.find_eq_ok_iff.mp ⟨files, hfind⟩⟩
  · rintro ⟨hnames, ⟨excluded, hexcluded⟩, hpaths⟩
    obtain ⟨files, hfind⟩ := Files.Discovery.find_eq_ok_iff.mpr hpaths
    exact ⟨files, trivial, hlacks, hnames, _, excluded, hendings, hexcluded, hfind⟩

/-- The settings that are built of a JSON text pass a test. -/
def builds (text : String) (test : Settings → Bool) : Bool :=
  (Json.read text.toList).toOption.any fun data =>
    Run.endsIn (Run.buildSettings data) (Run.withSettings "") fun built _ => test built

theorem exists_of_builds {text : String} {test : Settings → Bool} (h : builds text test = true) :
    ∃ data built t, Json.read text.toList = .ok data ∧
      (Run.buildSettings data).run (Run.withSettings "") = (.ok built, t) ∧ test built = true := by
  unfold builds at h
  obtain ⟨data, hdata, hends⟩ := (Option.any_eq_true _ _).mp h
  obtain ⟨built, t, hbuilt, htest⟩ := Run.exists_of_endsIn hends
  exact ⟨data, built, t, Settings.eq_ok_of_toOption hdata, hbuilt, htest⟩

/-- A file with a package to ignore, a level, an extension and a directory to exclude. -/
def acceptable : String :=
  "\x7b\"rule\": \x7b\"ignore\": [\"a\"]\x7d, \"logging\": \x7b\"log_level\": \"info\"\x7d," ++
    "\"discovery\": \x7b\"extensions\": [\".ts\"], \"exclude_dirs\": [\"lib\"]\x7d\x7d"

/-- A file with a number where a list of directories belongs. -/
def miscounted : String := "\x7b\"discovery\": \x7b\"exclude_dirs\": 5\x7d\x7d"

/-- A session in which the file `c.json` has a number for the directories to exclude, and there is
an empty source file. -/
def withMiscounted : Session :=
  { Run.withSettings "" with
    files := ⟨[(["c.json"], .file (Text.Utf8.encode miscounted)), (["a.js"], .file [])]⟩ }

end Command

end ImportAudit
