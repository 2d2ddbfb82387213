/-
# ImportAudit.Proofs.Session.Effective — the options that a check goes by.

The options of a check come from four places: what holds by default, the section of the rule in the
file, three variables of the environment, and flags.  The first three are replaced one by the other,
option by option, and flags add to what results (`RuleOptions.effective`).  Settings that are loaded
come to exactly that (`loadSettings_merged`), whatever else the file, the environment and the flags
hold, if the section passes validation and no member of it touches its guise.
-/
import ImportAudit.Proofs.Session.Precedence
import ImportAudit.Proofs.Settings.Parts

namespace ImportAudit

/-! ## What the options are -/

/-- The truth value of an option: that of its variable if it is set, or else the one that the file
gives, or else false. -/
def Environment.switched (env : Environment) (name : String) (given : Option Value) : Bool :=
  match env.text? name, given with
  | some text, _ => decide (Text.lower text ∈ ["true", "1", "yes", "on"])
  | none, some (.bool b) => b
  | none, _ => false

/-- The packages to ignore: those of the variable if it is set, or else those that the file gives,
or else none. -/
def Environment.excused (env : Environment) (given : Option Value) : List String :=
  match env.text? "NO_IMPLICIT_DEPS_IGNORE", given with
  | some text, _ => splitList text
  | none, some (.list items) => (RuleOptions.textsOf? items).getD []
  | none, _ => []

/-- The options that an environment, the members of a section and flags come to. -/
def RuleOptions.effective (env : Environment) (members : List (Value × Value))
    (flags : RuleOptions) : RuleOptions where
  dev := flags.dev || env.switched "NO_IMPLICIT_DEPS_DEV" (Value.last? "dev" members)
  optional := flags.optional ||
    env.switched "NO_IMPLICIT_DEPS_OPTIONAL" (Value.last? "optional" members)
  ignore := env.excused (Value.last? "ignore" members) ++ flags.ignore

namespace Environment

theorem switched_of_flag {env : Environment} {name : String} {given : Option Value} {b : Bool}
    (h : env.flag name (given.getD (.bool false)) = .bool b) : env.switched name given = b := by
  unfold switched
  cases htext : env.text? name with
  | some text =>
      rw [flag_of_text? htext] at h
      exact Value.bool.inj h
  | none =>
      rw [flag_of_unset htext] at h
      cases given with
      | none => exact Value.bool.inj h
      | some v =>
          obtain rfl : v = .bool b := h
          rfl

/-- The value of the packages to ignore, and the texts that it holds. -/
theorem excused_of_ignore {env : Environment} {s : Settings} {given : Option Value}
    {names : List String} (hgiven : s.rule.ignore = given.getD (.list []))
    (h : (env.apply s).rule.ignore = .ofTexts names) : env.excused given = names := by
  have hinj : ∀ {texts : List String}, Value.ofTexts texts = .ofTexts names → texts = names := by
    intro texts heq
    have hsome := RuleOptions.textsOf?_ofTexts texts
    rw [Value.list.inj heq, RuleOptions.textsOf?_ofTexts] at hsome
    exact (Option.some.inj hsome).symm
  dsimp only [apply] at h
  unfold excused
  cases htext : env.text? "NO_IMPLICIT_DEPS_IGNORE" with
  | some text =>
      rw [htext] at h
      exact hinj h
  | none =>
      rw [htext] at h
      obtain h : s.rule.ignore = .ofTexts names := h
      rw [hgiven] at h
      cases given with
      | none => exact hinj h
      | some v =>
          obtain rfl : v = .ofTexts names := h
          show (RuleOptions.textsOf? (names.map .text)).getD [] = names
          rw [RuleOptions.textsOf?_ofTexts]
          rfl

/-- The environment takes no member from a section. -/
theorem lacks_apply {env : Environment} {s : Settings} (h : s.rule.guise.members = none) :
    (env.apply s).rule.guise.members = none := by
  dsimp only [apply]
  cases env.text? "NO_IMPLICIT_DEPS_IGNORE" with
  | none => exact h
  | some text => simp [Guise.giving, h]

end Environment

namespace Settings

/-! ## What the file gives -/

/-- No member of the section of the rule touches its guise. -/
structure RuleIsPlain (file : Value) : Prop where
  members : "__dict__" ∉ Value.textKeys (file.membersOf "rule")
  listing : "__dataclass_fields__" ∉ Value.textKeys (file.membersOf "rule")

/-- Changing an option that a section has changes that one and no other. -/
theorem setRule_getD (key : String) (v : Value) {s : RuleSettings} (h : s.guise.members = none) :
    ((setRule key v s).getD s).dev = (if key = "dev" then v else s.dev) ∧
      ((setRule key v s).getD s).optional = (if key = "optional" then v else s.optional) ∧
      ((setRule key v s).getD s).ignore = if key = "ignore" then v else s.ignore := by
  have hlacks : s.guise.lacks "ignore" = false := Part.lacks_of_members h "ignore"
  unfold setRule
  split <;> simp_all

/-- The options of the rule are those that the file gives last. -/
theorem rule_of_ofFile {file : Value} {given : Settings} (hplain : RuleIsPlain file)
    (h : (ofFile file).2 = .ok given) :
    given.rule.guise = {} ∧
      given.rule.dev = (Value.last? "dev" (file.membersOf "rule")).getD (.bool false) ∧
      given.rule.optional = (Value.last? "optional" (file.membersOf "rule")).getD (.bool false) ∧
      given.rule.ignore = (Value.last? "ignore" (file.membersOf "rule")).getD (.list []) := by
  have hstep : ∀ key v {s : RuleSettings}, s.guise.members = none →
      ((setRule key v s).getD s).guise.members = none := by
    intro key v s hs
    have hguise : ((setRule key v s).getD s).guise = s.guise :=
      Part.guise_getD Part.lawful_rulePart key v s
    rw [hguise, hs]
  rw [Part.eq_setAll_of_readMembers hplain.members hplain.listing (readMembers_of_ofFile h).1]
  refine ⟨Part.guise_setAll Part.lawful_rulePart {} _, ?_, ?_, ?_⟩
  · exact Part.get_setAll (p := rulePart) RuleSettings.dev
      (fun key v _ hs => ⟨hstep key v hs, (setRule_getD key v hs).1⟩) rfl _
  · exact Part.get_setAll (p := rulePart) RuleSettings.optional
      (fun key v _ hs => ⟨hstep key v hs, (setRule_getD key v hs).2.1⟩) rfl _
  · exact Part.get_setAll (p := rulePart) RuleSettings.ignore
      (fun key v _ hs => ⟨hstep key v hs, (setRule_getD key v hs).2.2⟩) rfl _

/-- A section that is not objected to stays as it was built. -/
theorem rule_reset {s : Settings} {os : List Objection} (h : s.objections = .ok os)
    (hrule : ruleObjections s.rule = .ok []) : (s.reset os).rule = s.rule := by
  have hos : ruleObjections s.rule = .ok (os.filter fun o => o.topic = .rule) :=
    objectionsTo_of_objections h .rule
  have hnone : ¬(os.any fun o => o.topic = .rule) = true := by
    rw [hrule] at hos
    simpa using (Except.ok.inj hos).symm
  have hreset := reset_sameIn s os .rule
  rwa [if_neg hnone] at hreset

end Settings

namespace Run

variable {s v : Session}

/-- Let settings be loaded anew, let the section of the rule that is built pass validation, and let
no member that the file gives it touch its guise.  Then the options of a check are the effective
ones, whatever its flags are. -/
theorem loadSettings_merged {path : Option Path} {r : Settings}
    (hfresh : path.isSome ∨ s.settings = none) (h : (loadSettings path).run s = (.ok r, v)) :
    ∃ data t given, (settingsValue path).run s = (.ok data, t) ∧
      (Settings.ofFile data).2 = .ok given ∧
      (Settings.ruleObjections (s.environment.apply given).rule = .ok [] →
        Settings.RuleIsPlain data → ∀ flags,
          r.rule.merged flags =
            .ok (.effective s.environment (data.membersOf "rule") flags)) := by
  obtain ⟨data, t, given, os, hdata, hgiven, hos, rfl⟩ := exists_of_loadSettings hfresh h
  refine ⟨data, t, given, hdata, hgiven, fun hvalid hplain flags => ?_⟩
  obtain ⟨hguise, hdev, hoptional, hignore⟩ := Settings.rule_of_ofFile hplain hgiven
  have hmembers : given.rule.guise.members = none := by rw [hguise]
  have hlacks : (s.environment.apply given).rule.guise.lacks "ignore" = false :=
    Settings.Part.lacks_of_members (Environment.lacks_apply hmembers) "ignore"
  -- the section can be read, and it is not the list of its settings that makes it so
  obtain ⟨hplace, hread⟩ := Settings.toOptions_of_ruleObjections hvalid
  have husable : (s.environment.apply given).rule.Usable := by
    rcases (RuleSettings.toOptions_iff_usable hplace).mp hread with ⟨-, -, husable⟩ | hlisting
    · exact husable
    · rw [Environment.listing_apply, hguise] at hlisting
      cases hlisting
  obtain ⟨⟨dev, hdev'⟩, ⟨optional, hoptional'⟩, ⟨names, hignore'⟩⟩ := husable
  rw [Settings.rule_reset hos hvalid,
    RuleSettings.merged_of_usable hlacks hdev' hoptional' hignore' flags]
  have hdevFlag : s.environment.flag "NO_IMPLICIT_DEPS_DEV" given.rule.dev = .bool dev := hdev'
  have hoptionalFlag : s.environment.flag "NO_IMPLICIT_DEPS_OPTIONAL" given.rule.optional =
      .bool optional := hoptional'
  rw [hdev] at hdevFlag
  rw [hoptional] at hoptionalFlag
  rw [RuleOptions.effective, Environment.switched_of_flag hdevFlag,
    Environment.switched_of_flag hoptionalFlag, Environment.excused_of_ignore hignore hignore']

/-- A file with packages to ignore, a member that is unknown and a level that is of no use. -/
def layered : String :=
  "\x7b\"rule\": \x7b\"dev\": true, \"optional\": 5, \"odd\": 1, \"ignore\": [\"a\"]\x7d," ++
    "\"logging\": \x7b\"log_level\": 1\x7d\x7d"

/-- The settings of a file are read, and the options that they come to with an environment and flags
pass a test. -/
def comesTo (env : Environment) (flags o : RuleOptions) (data : Value) : Bool :=
  match (Settings.ofFile data).2 with
  | .error _ => false
  | .ok given =>
    (Settings.ruleObjections (env.apply given).rule).toOption = some [] ∧
      "__dict__" ∉ Value.textKeys (data.membersOf "rule") ∧
      "__dataclass_fields__" ∉ Value.textKeys (data.membersOf "rule") ∧
      RuleOptions.effective env (data.membersOf "rule") flags = o

/-- Each option comes from another place. -/
theorem loadSettings_merged_layered :
    ∃ r v, (loadSettings (some ⟨"", ["c.json"]⟩)).run
        (withVariables layered [("NO_IMPLICIT_DEPS_OPTIONAL", "on")]) = (.ok r, v) ∧
      r.rule.merged { ignore := ["b"] } = .ok ⟨true, true, ["a", "b"]⟩ := by
  have hends : endsIn (loadSettings (some ⟨"", ["c.json"]⟩))
      (withVariables layered [("NO_IMPLICIT_DEPS_OPTIONAL", "on")]) (fun _ _ => true) = true := by
    decide +kernel
  have hread : endsIn (settingsValue (some ⟨"", ["c.json"]⟩))
      (withVariables layered [("NO_IMPLICIT_DEPS_OPTIONAL", "on")]) (fun data _ =>
        comesTo [("NO_IMPLICIT_DEPS_OPTIONAL", "on")] { ignore := ["b"] } ⟨true, true, ["a", "b"]⟩
          data) = true := by decide +kernel
  obtain ⟨r, v, hrun, -⟩ := exists_of_endsIn hends
  obtain ⟨data, t, given, hdata, hgiven, hmerged⟩ := loadSettings_merged (.inl rfl) hrun
  have hcomes := test_of_endsIn hread hdata
  simp only [comesTo, hgiven, decide_eq_true_eq] at hcomes
  obtain ⟨hvalid, hmembers, hlisting, heffective⟩ := hcomes
  refine ⟨r, v, hrun, ?_⟩
  have hvalid := Settings.eq_ok_of_toOption hvalid
  rw [← heffective]
  exact hmerged hvalid ⟨hmembers, hlisting⟩ _

/-- A file that says that `dev` is true, and then gives the section all its members anew. -/
def renewed : String :=
  "\x7b\"rule\": \x7b\"dev\": true, \"__dict__\": \x7b\"ignore\": []\x7d\x7d\x7d"

/-- The section passes validation and `dev` is true in it, but not among the options of a check. -/
theorem loadSettings_merged_renewed :
    ∃ data t given r v,
      (settingsValue (some ⟨"", ["c.json"]⟩)).run (withSettings renewed) = (.ok data, t) ∧
      (Settings.ofFile data).2 = .ok given ∧
      Settings.ruleObjections (Environment.apply [] given).rule = .ok [] ∧
      RuleOptions.effective [] (data.membersOf "rule") {} = ⟨true, false, []⟩ ∧
      (loadSettings (some ⟨"", ["c.json"]⟩)).run (withSettings renewed) = (.ok r, v) ∧
      r.rule.merged {} = .ok ⟨false, false, []⟩ := by
  have hends : endsIn (loadSettings (some ⟨"", ["c.json"]⟩)) (withSettings renewed)
      (fun r _ => (r.rule.merged {}).toOption = some ⟨false, false, []⟩) = true := by
    decide +kernel
  have hread : endsIn (settingsValue (some ⟨"", ["c.json"]⟩)) (withSettings renewed)
      (fun data _ => (Settings.ofFile data).2.toOption.any (fun given =>
          (Settings.ruleObjections (Environment.apply [] given).rule).toOption = some []) &&
        RuleOptions.effective [] (data.membersOf "rule") {} = ⟨true, false, []⟩) = true := by
    decide +kernel
  obtain ⟨r, v, hrun, hmerged⟩ := exists_of_endsIn hends
  obtain ⟨data, t, hdata, htest⟩ := exists_of_endsIn hread
  rw [Bool.and_eq_true, Option.any_eq_true] at htest
  obtain ⟨⟨given, hgiven, hvalid⟩, heffective⟩ := htest
  exact ⟨data, t, given, r, v, hdata, Settings.eq_ok_of_toOption hgiven,
    Settings.eq_ok_of_toOption (of_decide_eq_true hvalid), of_decide_eq_true heffective, hrun,
    Settings.eq_ok_of_toOption (of_decide_eq_true hmerged)⟩

end Run

end ImportAudit
