/-
# ImportAudit.Proofs.Settings.Judged — settings of any values are judged.

Let a file give nothing but settings, of whatever values.  Then nothing keeps it from being read,
and no more is remarked than that a section is no mapping (`ofFile_settings`).  Output and log are
judged whatever they hold, and so is the rule, as long as nothing has changed but its settings
(`exists_ruleObjections`); the extensions, however, are looked at one after the other before
anything is said about them as a whole.  So the settings can be judged exactly if what stands for
the extensions consists of items (`objections_iff`).
-/
import ImportAudit.Proofs.Settings.Parts
import ImportAudit.Settings.Environment

namespace ImportAudit

/-- A value consists of items, which can be looked at one after the other. -/
inductive Value.HasItems : Value → Prop
  | list (vs : List Value) : HasItems (.list vs)
  | text (s : String) : HasItems (.text s)
  | mapping (entries : List (Value × Value)) : HasItems (.mapping entries)

theorem Value.hasItems_iff {v : Value} : v.HasItems ↔ ∃ items, v.items = .ok items := by
  constructor
  · intro h
    cases h <;> exact ⟨_, rfl⟩
  · rintro ⟨items, h⟩
    cases v with
    | list vs => exact .list vs
    | text s => exact .text s
    | mapping entries => exact .mapping entries
    | _ => cases h

namespace Settings

/-! ## Files of settings -/

/-- The members of the sections of a file are settings. -/
def HasSettingsOnly (file : Value) : Prop :=
  ∀ topic : Topic, ∀ e ∈ file.membersOf topic.name, ∃ key ∈ topic.fields, e.1 = .text key

theorem fields_subset_own (topic : Topic) : ∀ key ∈ topic.fields, key ∈ topic.own := by
  cases topic <;> decide

/-- A section of which only settings are given is read, and it is remarked on at most as a whole. -/
theorem readFrom_settings {α : Type} {p : Part α} {topic : Topic} (hp : p.Lawful topic)
    {entries : List (Value × Value)} (h : HasSettingsOnly (.mapping entries)) :
    ∃ remarks, p.readFrom (.mapping entries) =
        (remarks, .ok (p.setAll p.default ((Value.mapping entries).membersOf topic.name))) ∧
      ∀ remark ∈ remarks, remark = .notMapping topic.name := by
  have hmembers : ∀ e ∈ (Value.mapping entries).membersOf topic.name,
      ∃ key ∈ topic.own, e.1 = .text key := by
    intro e he
    obtain ⟨key, hkey, hname⟩ := h topic e he
    exact ⟨key, fields_subset_own topic key hkey, hname⟩
  have hguise : (p.guise p.default).members = none := by rw [hp.guise_default]
  have hread := Part.readMembers_settings hp hguise hmembers
  rw [Part.readFrom_mapping, hp.name]
  unfold Value.membersOf Value.member? at hread ⊢
  dsimp only at hread ⊢
  cases hpart : Value.lookup topic.name entries with
  | none => exact ⟨[], rfl, nofun⟩
  | some v =>
      rw [hpart] at hread
      cases v with
      | mapping members => exact ⟨[], hread, nofun⟩
      | _ => exact ⟨[.notMapping p.name], rfl, fun remark hremark => by
          rw [List.mem_singleton.mp hremark, hp.name]⟩

/-- The settings of a file of settings, each section with its settings changed one after the
other. -/
def ofSettings (file : Value) : Settings where
  rule := rulePart.setAll {} (file.membersOf "rule")
  output := outputPart.setAll {} (file.membersOf "output")
  logging := loggingPart.setAll {} (file.membersOf "logging")
  discovery := discoveryPart.setAll {} (file.membersOf "discovery")

/-- A file of settings is read, and it is remarked on sections as a whole at most. -/
theorem ofFile_settings {entries : List (Value × Value)}
    (h : HasSettingsOnly (.mapping entries)) :
    ∃ remarks, ofFile (.mapping entries) = (remarks, .ok (ofSettings (.mapping entries))) ∧
      ∀ remark ∈ remarks, ∃ topic : Topic, remark = .notMapping topic.name := by
  obtain ⟨rule, hrule, hruleOnly⟩ := readFrom_settings Part.lawful_rulePart h
  obtain ⟨output, houtput, houtputOnly⟩ := readFrom_settings Part.lawful_outputPart h
  obtain ⟨logging, hlogging, hloggingOnly⟩ := readFrom_settings Part.lawful_loggingPart h
  obtain ⟨discovery, hdiscovery, hdiscoveryOnly⟩ := readFrom_settings Part.lawful_discoveryPart h
  refine ⟨rule ++ (output ++ (logging ++ (discovery ++ []))), ?_, ?_⟩
  · rw [ofFile_mapping, hrule, houtput, hlogging, hdiscovery]
    rfl
  · simp only [List.append_nil, List.mem_append]
    rintro remark (hremark | hremark | hremark | hremark)
    · exact ⟨.rule, hruleOnly remark hremark⟩
    · exact ⟨.output, houtputOnly remark hremark⟩
    · exact ⟨.logging, hloggingOnly remark hremark⟩
    · exact ⟨.discovery, hdiscoveryOnly remark hremark⟩

/-! ## Judging them -/

theorem objections_ok_iff {s : Settings} :
    (∃ os, s.objections = .ok os) ↔
      (∃ os, ruleObjections s.rule = .ok os) ∧ ∃ os, discoveryObjections s.discovery = .ok os := by
  constructor
  · rintro ⟨os, h⟩
    obtain ⟨rule, discovery, hrule, hdiscovery, -⟩ := objections_eq_append h
    exact ⟨⟨rule, hrule⟩, ⟨discovery, hdiscovery⟩⟩
  · rintro ⟨⟨rule, hrule⟩, ⟨discovery, hdiscovery⟩⟩
    exact ⟨_, by rw [objections, hrule, hdiscovery]⟩

/-- A section that is as it is made can be judged, whatever its settings are. -/
theorem exists_ruleObjections {s : RuleSettings} (hplace : s.inPlaceOfReading = none)
    (hguise : s.guise = {}) : ∃ os, ruleObjections s = .ok os := by
  have hlisted : s.listed = .ok s.members := by
    refine listed_eq_ok_iff.mpr (.inl ⟨by rw [hguise], fun name _ => ?_, rfl⟩)
    rw [hguise]
    rfl
  unfold ruleObjections RuleSettings.toOptions
  rw [hplace, hlisted]
  dsimp only
  cases RuleOptions.ofValue (.ofMembers s.members) <;> exact ⟨_, rfl⟩

theorem discoveryObjections_ok_iff {s : DiscoverySettings} :
    (∃ os, discoveryObjections s = .ok os) ↔
      s.guise.lacks "extensions" = false ∧ s.extensions.HasItems := by
  rw [Value.hasItems_iff]
  unfold discoveryObjections DiscoverySettings.member Guise.member
  cases s.guise.lacks "extensions" with
  | true => simp
  | false => cases hitems : s.extensions.items <;> simp [hitems]

/-- Changing a setting that a section has changes that one and no other. -/
theorem extensions_setDiscovery (key : String) (v : Value) {s : DiscoverySettings}
    (h : s.guise.members = none) :
    ((setDiscovery key v s).getD s).extensions =
      if key = "extensions" then v else s.extensions := by
  have hextensions : s.guise.lacks "extensions" = false := Part.lacks_of_members h "extensions"
  have hexcluded : s.guise.lacks "exclude_dirs" = false := Part.lacks_of_members h "exclude_dirs"
  unfold setDiscovery
  split <;> simp_all

/-- The value that a file gives for the extensions, or the one that holds by default. -/
def extensionsOf (file : Value) : Value :=
  (Value.last? "extensions" (file.membersOf "discovery")).getD (.ofTexts defaultExtensions)

theorem extensions_ofSettings (file : Value) :
    (ofSettings file).discovery.extensions = extensionsOf file := by
  refine Part.get_setAll (p := discoveryPart) (Q := fun s => s.guise.members = none)
    DiscoverySettings.extensions (fun key v s hs => ⟨?_, extensions_setDiscovery key v hs⟩) rfl _
  have hguise : ((setDiscovery key v s).getD s).guise = s.guise :=
    Part.guise_getD Part.lawful_discoveryPart key v s
  show ((setDiscovery key v s).getD s).guise.members = none
  rw [hguise, hs]

/-- Nothing takes the place of the reading of the options, unless it is given. -/
theorem inPlaceOfReading_setAll {members : List (Value × Value)}
    (h : ∀ key v, (.text key, v) ∈ members → key ≠ "to_options") :
    (rulePart.setAll {} members).inPlaceOfReading = none := by
  refine Part.setAll_keeps (p := rulePart) (Q := fun s => s.inPlaceOfReading = none)
    (P := fun key _ => key ≠ "to_options") ?_ h rfl
  intro key v s hreading hs
  show ((setRule key v s).getD s).inPlaceOfReading = none
  unfold setRule
  split
  · exact hs
  · exact hs
  · split <;> exact hs
  · exact absurd rfl hreading
  · exact hs

theorem inPlaceOfReading_ofSettings {file : Value} (h : HasSettingsOnly file) :
    (ofSettings file).rule.inPlaceOfReading = none := by
  refine inPlaceOfReading_setAll fun key v hmem => ?_
  obtain ⟨name, hname, heq⟩ := h .rule _ hmem
  cases heq
  exact ne_of_mem_of_not_mem hname (by decide)

/-- Settings of any values can be judged exactly if what stands for the extensions consists of
items. -/
theorem objections_iff {file : Value} (h : HasSettingsOnly file) (env : Environment) :
    (∃ os, (env.apply (ofSettings file)).objections = .ok os) ↔ (extensionsOf file).HasItems := by
  have hrule : (ofSettings file).rule.guise = {} :=
    Part.guise_setAll Part.lawful_rulePart {} (file.membersOf "rule")
  have hdiscovery : (ofSettings file).discovery.guise = {} :=
    Part.guise_setAll Part.lawful_discoveryPart {} (file.membersOf "discovery")
  have hguise : (env.apply (ofSettings file)).rule.guise = {} := by
    dsimp only [Environment.apply]
    rw [hrule]
    cases env.text? "NO_IMPLICIT_DEPS_IGNORE" <;> rfl
  have hplace : (env.apply (ofSettings file)).rule.inPlaceOfReading = none :=
    inPlaceOfReading_ofSettings h
  have hlacks : (env.apply (ofSettings file)).discovery.guise.lacks "extensions" = false := by
    show (ofSettings file).discovery.guise.lacks "extensions" = false
    rw [hdiscovery]
    rfl
  rw [objections_ok_iff, and_iff_right (exists_ruleObjections hplace hguise),
    discoveryObjections_ok_iff, and_iff_right hlacks, ← extensions_ofSettings]
  rfl

end Settings

end ImportAudit
