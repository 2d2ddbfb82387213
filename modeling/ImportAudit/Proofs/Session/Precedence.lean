/-
# ImportAudit.Proofs.Session.Precedence — the environment outranks the file.

Options of the rule come from a file, and a variable of the environment that is set outranks them.
The section that results is judged as a whole, and if one of its options is of no use all three
become what they are by default, those that the environment gives included.  A variable gives an
option that is of use, so the section is of no use exactly if the file has put something else in
the place of an option that the environment leaves to it (`usable_iff`).  Flaws of other
sections have no say in it (`loadSettings_outranked`).
-/
import ImportAudit.Proofs.Session.Frame
import ImportAudit.Proofs.Session.Recovery
import ImportAudit.Proofs.Settings.Usable

namespace ImportAudit

/-! ## Variables -/

/-- The options that an environment leaves to a section are of use, if they are among the settings
that the section lists: a list that has taken the place of its own has none of them. -/
structure RuleSettings.UsableIn (env : Environment) (s : RuleSettings) : Prop where
  dev : env.text? "NO_IMPLICIT_DEPS_DEV" = none → s.guise.listing = none → ∃ b, s.dev = .bool b
  optional : env.text? "NO_IMPLICIT_DEPS_OPTIONAL" = none → s.guise.listing = none →
    ∃ b, s.optional = .bool b
  ignore : env.text? "NO_IMPLICIT_DEPS_IGNORE" = none → s.guise.listing = none →
    ∃ names, s.ignore = .ofTexts names

namespace Environment

theorem flag_of_text? {env : Environment} {name text : String} (h : env.text? name = some text)
    (v : Value) : env.flag name v = .bool (decide (Text.lower text ∈ affirmations)) := by
  rw [flag, h, ← List.contains_eq_mem]

theorem flag_of_unset {env : Environment} {name : String} (h : env.text? name = none)
    (v : Value) : env.flag name v = v := by
  rw [flag, h]

/-- A flag is of use if the variable is set or the file gives a truth value. -/
theorem flag_usable_iff (env : Environment) (name : String) (v : Value) :
    (∃ b, env.flag name v = .bool b) ↔ (env.text? name = none → ∃ b, v = .bool b) := by
  cases h : env.text? name with
  | none =>
      rw [flag_of_unset h]
      exact ⟨fun hv _ => hv, fun hv => hv rfl⟩
  | some text =>
      rw [flag_of_text? h]
      exact ⟨fun _ hnone => (nomatch hnone), fun _ => ⟨_, rfl⟩⟩

/-- The environment leaves the list of settings to the section. -/
@[simp] theorem listing_apply (env : Environment) (s : Settings) :
    (env.apply s).rule.guise.listing = s.rule.guise.listing := by
  dsimp only [apply]
  cases env.text? "NO_IMPLICIT_DEPS_IGNORE" <;> rfl

/-- What the environment makes of a section is of use if what it leaves to the section is. -/
theorem usable_iff (env : Environment) (s : Settings) :
    (s.rule.guise.listing = none → (env.apply s).rule.Usable) ↔ s.rule.UsableIn env := by
  have hignore : (∃ names, (env.apply s).rule.ignore = .ofTexts names) ↔
      (env.text? "NO_IMPLICIT_DEPS_IGNORE" = none → ∃ names, s.rule.ignore = .ofTexts names) := by
    dsimp only [apply]
    cases env.text? "NO_IMPLICIT_DEPS_IGNORE" with
    | none => exact ⟨fun h _ => h, fun h => h rfl⟩
    | some text => exact ⟨fun _ hnone => (nomatch hnone), fun _ => ⟨_, rfl⟩⟩
  constructor
  · intro h
    refine ⟨fun hunset hlisting => ?_, fun hunset hlisting => ?_, fun hunset hlisting => ?_⟩
    · exact (env.flag_usable_iff _ _).mp (h hlisting).dev hunset
    · exact (env.flag_usable_iff _ _).mp (h hlisting).optional hunset
    · exact hignore.mp (h hlisting).ignore hunset
  · rintro ⟨hdev, hoptional, hnames⟩ hlisting
    exact ⟨(env.flag_usable_iff _ _).mpr fun hunset => hdev hunset hlisting,
      (env.flag_usable_iff _ _).mpr fun hunset => hoptional hunset hlisting,
      hignore.mpr fun hunset => hnames hunset hlisting⟩

end Environment

/-! ## Sections that are judged -/

namespace Settings

/-- The rule is objected to if its section lists its settings and they cannot be read. -/
theorem rule_objected_iff {s : Settings} {os : List Objection} (h : s.objections = .ok os) :
    (∃ o ∈ os, o.topic = .rule) ↔ ¬(s.rule.guise.listing = none → s.rule.Usable) := by
  have hrule : ruleObjections s.rule = .ok (os.filter fun o => o.topic = .rule) :=
    objectionsTo_of_objections h .rule
  have hmem : (∃ o ∈ os, o.topic = .rule) ↔ os.filter (fun o => o.topic = .rule) ≠ [] := by
    simp [List.filter_eq_nil_iff]
  rw [hmem]
  cases hplace : s.rule.inPlaceOfReading with
  | some v =>
      -- then the section is not even judged
      simp [ruleObjections, RuleSettings.toOptions, hplace] at hrule
  | none =>
      have hread := RuleSettings.toOptions_iff_usable hplace
      unfold ruleObjections at hrule
      split at hrule
      · next o ho =>
          rw [← Except.ok.inj hrule]
          rcases hread.mp ⟨o, ho⟩ with ⟨-, -, husable⟩ | hlisting
          · simp [husable]
          · simp [hlisting]
      · next f hf =>
          rw [← Except.ok.inj hrule]
          obtain ⟨hlisting, hlacks⟩ := RuleSettings.listed_of_toOptions_error hf
          have husable : ¬s.rule.Usable := by
            intro husable
            obtain ⟨o, ho⟩ := hread.mpr (.inl ⟨hlisting, hlacks, husable⟩)
            rw [hf] at ho
            cases ho
          simp [hlisting, husable]
      · cases hrule

end Settings

namespace Run

variable {s t u v : Session}

theorem buildSettings_eq (data : Value) :
    buildSettings data = (do
      warnAll ((Settings.ofFile data).1.map Settings.Remark.text)
      let settings ← ofExcept ((Settings.ofFile data).2.mapError .misuse)
      pure ((← get).environment.apply settings)) := rfl

/-- What is built comes from a value and from the environment. -/
theorem eq_apply_of_buildSettings {data : Value} {built : Settings}
    (h : (buildSettings data).run t = (.ok built, u)) :
    ∃ file, (Settings.ofFile data).2 = .ok file ∧ built = t.environment.apply file := by
  rw [buildSettings_eq] at h
  obtain ⟨_, w, hwarn, h⟩ := run_bind_eq_ok_iff.mp h
  obtain ⟨file, w', hread, h⟩ := run_bind_eq_ok_iff.mp h
  have henv : w.environment = t.environment :=
    (keeps_warnAll Session.blind_environment.toBlindAside _).of_run hwarn
  cases hfile : (Settings.ofFile data).2 with
  | error f => rw [hfile] at hread; cases hread
  | ok given =>
      rw [hfile] at hread
      cases hread
      cases h
      exact ⟨_, rfl, by rw [henv]⟩

/-- What is loaded from a value is what it and the environment give, with the sections replaced that
are objected to. -/
theorem exists_of_reloadSettings {file : Option Path} {r : Settings}
    (h : (reloadSettings file).run s = (.ok r, v)) :
    ∃ data t given os, (match file with
        | none => pure .null
        | some p => readSettingsFile p : Run Value).run s = (.ok data, t) ∧
      (Settings.ofFile data).2 = .ok given ∧
      (t.environment.apply given).objections = .ok os ∧
      r = (t.environment.apply given).reset os := by
  have hvalue : ∀ data t, (do
        let built ← buildSettings data
        let settings ← settle built (← ofExcept built.objections)
        modify fun s => { s with settings := some settings }
        pure settings : Run Settings).run t = (.ok r, v) →
      ∃ given os, (Settings.ofFile data).2 = .ok given ∧
        (t.environment.apply given).objections = .ok os ∧
        r = (t.environment.apply given).reset os := by
    intro data t h
    obtain ⟨built, u, hbuilt, h⟩ := run_bind_eq_ok_iff.mp h
    obtain ⟨given, hgiven, rfl⟩ := eq_apply_of_buildSettings hbuilt
    obtain ⟨os, w, hjudged, h⟩ := run_bind_eq_ok_iff.mp h
    obtain ⟨settings, w', hsettle, h⟩ := run_bind_eq_ok_iff.mp h
    cases h
    cases hos : (t.environment.apply given).objections with
    | error f => rw [hos] at hjudged; cases hjudged
    | ok os' =>
        rw [hos] at hjudged
        cases hjudged
        exact ⟨given, os, hgiven, hos, eq_reset_of_settle hsettle⟩
  cases file with
  | none =>
      obtain ⟨given, os, hgiven, hos, hr⟩ := hvalue .null s h
      exact ⟨.null, s, given, os, rfl, hgiven, hos, hr⟩
  | some p =>
      obtain ⟨data, t, hdata, h⟩ := run_bind_eq_ok_iff.mp h
      obtain ⟨given, os, hgiven, hos, hr⟩ := hvalue data t h
      exact ⟨data, t, given, os, hdata, hgiven, hos, hr⟩

theorem keeps_settingsValue {γ : Type} {view : Session → γ} (hview : Session.Blind view)
    (path : Option Path) : Keeps view (settingsValue path) := by
  have hread : ∀ file : Option Path, Keeps view (match file with
      | none => pure .null
      | some p => readSettingsFile p : Run Value) := by
    intro file
    cases file with
    | none => exact keeps_pure _
    | some p => exact keeps_readSettingsFile hview.toBlindAside p
  cases path with
  | some p => exact (keeps_pure (some p)).bind hread
  | none => exact (keeps_findSettingsFile none).bind hread

/-- Settings that are loaded anew are what a value and the environment give, with the sections
replaced that are objected to. -/
theorem exists_of_loadSettings {path : Option Path} {r : Settings}
    (hfresh : path.isSome ∨ s.settings = none) (h : (loadSettings path).run s = (.ok r, v)) :
    ∃ data t given os, (settingsValue path).run s = (.ok data, t) ∧
      (Settings.ofFile data).2 = .ok given ∧
      (s.environment.apply given).objections = .ok os ∧
      r = (s.environment.apply given).reset os := by
  unfold loadSettings at h
  rw [run_bind_of_ok (run_get s)] at h
  cases path with
  | some p =>
      obtain ⟨data, t, given, os, hdata, hgiven, hos, hr⟩ := exists_of_reloadSettings h
      have henv : t.environment = s.environment :=
        (keeps_readSettingsFile Session.blind_environment.toBlindAside p).of_run hdata
      rw [henv] at hos hr
      exact ⟨data, t, given, os, hdata, hgiven, hos, hr⟩
  | none =>
      have hnone : s.settings = none := by simpa using hfresh
      rw [hnone] at h
      obtain ⟨file, w, hfile, h⟩ := run_bind_eq_ok_iff.mp h
      obtain ⟨data, t, given, os, hdata, hgiven, hos, hr⟩ := exists_of_reloadSettings h
      have hvalue : (settingsValue none).run s = (.ok data, t) := by
        unfold settingsValue
        rw [run_bind_of_ok hfile]
        exact hdata
      have henv : t.environment = s.environment :=
        (keeps_settingsValue Session.blind_environment none).of_run hvalue
      rw [henv] at hos hr
      exact ⟨data, t, given, os, hvalue, hgiven, hos, hr⟩

/-- Let settings be loaded anew, with flaws or without, and let `given` be what the file gives.

* If the options of the rule are of use that the environment leaves to the file, then every variable
  that is set outranks the file, and what is left to the file is as the file gives it.
* If one of them is of no use, the whole section is the one that holds by default, and what the
  environment gives is lost with it.

Flaws of other sections are not asked for. -/
theorem loadSettings_outranked {path : Option Path} {r : Settings}
    (hfresh : path.isSome ∨ s.settings = none) (h : (loadSettings path).run s = (.ok r, v)) :
    ∃ data t given, (settingsValue path).run s = (.ok data, t) ∧
      (Settings.ofFile data).2 = .ok given ∧
      (given.rule.UsableIn s.environment →
        (∀ text, s.environment.text? "NO_IMPLICIT_DEPS_DEV" = some text →
          r.rule.dev = .bool (decide (Text.lower text ∈ ["true", "1", "yes", "on"]))) ∧
        (∀ text, s.environment.text? "NO_IMPLICIT_DEPS_OPTIONAL" = some text →
          r.rule.optional = .bool (decide (Text.lower text ∈ ["true", "1", "yes", "on"]))) ∧
        (∀ text, s.environment.text? "NO_IMPLICIT_DEPS_IGNORE" = some text →
          r.rule.ignore = .ofTexts (Environment.splitList text)) ∧
        (s.environment.text? "NO_IMPLICIT_DEPS_DEV" = none → r.rule.dev = given.rule.dev) ∧
        (s.environment.text? "NO_IMPLICIT_DEPS_OPTIONAL" = none →
          r.rule.optional = given.rule.optional) ∧
        (s.environment.text? "NO_IMPLICIT_DEPS_IGNORE" = none →
          r.rule.ignore = given.rule.ignore)) ∧
      (¬given.rule.UsableIn s.environment → r.rule = {}) := by
  obtain ⟨data, t, given, os, hdata, hgiven, hos, rfl⟩ := exists_of_loadSettings hfresh h
  refine ⟨data, t, given, hdata, hgiven, ?_⟩
  have hreset := Settings.reset_sameIn (s.environment.apply given) os .rule
  have hobjected : (os.any fun o => o.topic = .rule) = true ↔ ¬given.rule.UsableIn s.environment := by
    rw [← Environment.usable_iff, ← s.environment.listing_apply, ← Settings.rule_objected_iff hos,
      List.any_eq_true]
    simp only [decide_eq_true_eq]
  constructor
  · intro husable
    have hrule : ((s.environment.apply given).reset os).rule =
        (s.environment.apply given).rule := by
      rwa [if_neg fun hany => hobjected.mp hany husable] at hreset
    rw [hrule]
    refine ⟨?_, ?_, ?_, ?_, ?_, ?_⟩
    · intro text htext
      exact Environment.flag_of_text? htext given.rule.dev
    · intro text htext
      exact Environment.flag_of_text? htext given.rule.optional
    · intro text htext
      simp only [Environment.apply, htext]
    · intro hunset
      exact Environment.flag_of_unset hunset given.rule.dev
    · intro hunset
      exact Environment.flag_of_unset hunset given.rule.optional
    · intro hunset
      simp only [Environment.apply, hunset]
  · intro hflawed
    rwa [if_pos (hobjected.mpr hflawed)] at hreset

/-- A session in which the file `c.json` holds a text and variables are set. -/
def withVariables (text : String) (environment : Environment) : Session :=
  { withSettings text with environment }

/-- A file in which every option of the rule is of no use, and the level of the log too. -/
def allFlawed : String :=
  "\x7b\"rule\": \x7b\"dev\": 5, \"optional\": null, \"ignore\": \"x\"\x7d," ++
    "\"logging\": \x7b\"log_level\": 1\x7d\x7d"

/-- Variables that give every option of the rule. -/
def allGiven : Environment :=
  [("NO_IMPLICIT_DEPS_DEV", "Yes"), ("NO_IMPLICIT_DEPS_OPTIONAL", "0"),
    ("NO_IMPLICIT_DEPS_IGNORE", "a, b")]

/-- No flaw of the file is left when the environment gives every option. -/
theorem loadSettings_allGiven :
    ∃ r v, (loadSettings (some ⟨"", ["c.json"]⟩)).run (withVariables allFlawed allGiven) =
        (.ok r, v) ∧
      r.rule.dev = .bool true ∧ r.rule.optional = .bool false ∧
      r.rule.ignore = .ofTexts ["a", "b"] := by
  have hends : endsIn (loadSettings (some ⟨"", ["c.json"]⟩)) (withVariables allFlawed allGiven)
      (fun _ _ => true) = true := by decide +kernel
  obtain ⟨r, v, hrun, -⟩ := exists_of_endsIn hends
  obtain ⟨data, t, given, -, -, husable, -⟩ := loadSettings_outranked (.inl rfl) hrun
  obtain ⟨hdev, hoptional, hignore, -⟩ := husable ⟨nofun, nofun, nofun⟩
  have hyes : Text.lower "Yes" ∈ ["true", "1", "yes", "on"] := by decide +kernel
  have hzero : Text.lower "0" ∉ ["true", "1", "yes", "on"] := by decide +kernel
  have hsplit : Environment.splitList "a, b" = ["a", "b"] := by decide +kernel
  refine ⟨r, v, hrun, ?_, ?_, ?_⟩
  · rw [hdev "Yes" rfl, decide_eq_true hyes]
  · rw [hoptional "0" rfl, decide_eq_false hzero]
  · rw [hignore "a, b" rfl, hsplit]

/-- There is one truth value that does not count as true. -/
theorem eq_false_of_typeName {value : Value} (htype : value.typeName = "bool")
    (hfalse : value.truthy = false) : value = .bool false := by
  cases value with
  | bool b => exact congrArg Value.bool hfalse
  | foreign f => cases hfalse
  | _ => simp [Value.typeName] at htype

/-- The variable for `dev` is set and true, but the file has a number for `optional`, and what is
loaded says that `dev` is false. -/
theorem loadSettings_overrideLost :
    ∃ r v, (loadSettings (some ⟨"", ["c.json"]⟩)).run
        (withVariables "\x7b\"rule\": \x7b\"optional\": 5\x7d\x7d"
          [("NO_IMPLICIT_DEPS_DEV", "1")]) = (.ok r, v) ∧
      Environment.text? [("NO_IMPLICIT_DEPS_DEV", "1")] "NO_IMPLICIT_DEPS_DEV" = some "1" ∧
      Text.lower "1" ∈ ["true", "1", "yes", "on"] ∧ r.rule.dev = .bool false := by
  have hends : endsIn (loadSettings (some ⟨"", ["c.json"]⟩))
      (withVariables "\x7b\"rule\": \x7b\"optional\": 5\x7d\x7d"
        [("NO_IMPLICIT_DEPS_DEV", "1")])
      (fun r _ => r.rule.dev.typeName == "bool" && !r.rule.dev.truthy) = true := by
    decide +kernel
  obtain ⟨r, v, hrun, hdev⟩ := exists_of_endsIn hends
  rw [Bool.and_eq_true, beq_iff_eq, Bool.not_eq_true'] at hdev
  exact ⟨r, v, hrun, rfl, by decide +kernel, eq_false_of_typeName hdev.1 hdev.2⟩

end Run

end ImportAudit
