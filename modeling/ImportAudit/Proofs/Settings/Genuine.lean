/-
# ImportAudit.Proofs.Settings.Genuine — files that set nothing but settings.

Let the members of every section be settings, or unknown.  Then the settings that the file gives are
its members changed one after the other (`ofFile_genuine`), and since changes of different settings
commute, they do not depend on the order in which the file gives them (`Reorders.ofSettings_eq`).
Settings that are as they are made but for their values are given again by the file that they are
written as (`ofFile_written`), and giving them the variables of the environment twice is the same as
giving them once (`IsGenuine.apply_apply`).
-/
import ImportAudit.Proofs.Session.Unknown
import ImportAudit.Proofs.Settings.Accepted
import ImportAudit.Proofs.Settings.Judged

namespace ImportAudit

/-! ## Members in another order -/

namespace Value

/-- The value is the other one, or both are mappings of the same entries in any order. -/
inductive Rearranges : Value → Value → Prop
  | same (v : Value) : Rearranges v v
  | mapping {members members' : List (Value × Value)} (h : members.Perm members') :
      Rearranges (.mapping members) (.mapping members')

/-- The entries are the others in any order, and so are the members of each. -/
def Reorders (entries entries' : List (Value × Value)) : Prop :=
  ∃ inner, List.Forall₂ (fun e e' => e.1 = e'.1 ∧ Rearranges e.2 e'.2) entries inner ∧
    inner.Perm entries'

section

variable {entries entries' inner : List (Value × Value)}

theorem textKeys_of_forall₂
    (h : List.Forall₂ (fun e e' => e.1 = e'.1 ∧ Rearranges e.2 e'.2) entries inner) :
    textKeys inner = textKeys entries := by
  induction h with
  | nil => rfl
  | @cons e e' _ _ he _ ih =>
      obtain ⟨k, v⟩ := e
      obtain ⟨k', v'⟩ := e'
      obtain rfl : k = k' := he.1
      cases k <;> first | exact ih | exact congrArg (List.cons _) ih

theorem IsObject.forall₂ (hobject : IsObject entries)
    (h : List.Forall₂ (fun e e' => e.1 = e'.1 ∧ Rearranges e.2 e'.2) entries inner) :
    IsObject inner := by
  obtain ⟨hnames, hnodup⟩ := isObject_iff.mp hobject
  refine isObject_iff.mpr ⟨?_, by rwa [textKeys_of_forall₂ h]⟩
  clear hobject hnodup
  induction h with
  | nil => exact List.forall_mem_nil _
  | @cons e e' _ _ he _ ih =>
      rw [List.forall_mem_cons] at hnames ⊢
      exact ⟨by rw [← he.1]; exact hnames.1, ih hnames.2⟩

/-- A name is looked up as the same value, rearranged. -/
theorem lookup_of_forall₂
    (h : List.Forall₂ (fun e e' => e.1 = e'.1 ∧ Rearranges e.2 e'.2) entries inner)
    (name : String) : Option.Rel Rearranges (lookup name entries) (lookup name inner) := by
  induction h with
  | nil => exact .none
  | @cons e e' _ _ he _ ih =>
      obtain ⟨k, v⟩ := e
      obtain ⟨k', v'⟩ := e'
      obtain ⟨rfl, hv⟩ : k = k' ∧ Rearranges v v' := he
      cases k with
      | text key =>
          rw [lookup, lookup]
          split
          · exact .some hv
          · exact ih
      | _ => exact ih

theorem Reorders.lookup (h : Reorders entries entries') (hobject : IsObject entries)
    (name : String) : Option.Rel Rearranges (lookup name entries) (lookup name entries') := by
  obtain ⟨inner, hinner, hperm⟩ := h
  rw [lookup_perm (hobject.forall₂ hinner) hperm]
  exact lookup_of_forall₂ hinner name

/-- A section has the same members. -/
theorem Reorders.membersOf (h : Reorders entries entries') (hobject : IsObject entries)
    (name : String) :
    ((mapping entries).membersOf name).Perm ((mapping entries').membersOf name) := by
  have hrel := h.lookup hobject name
  unfold Value.membersOf member?
  dsimp only
  generalize Value.lookup name entries = given at hrel ⊢
  generalize Value.lookup name entries' = given' at hrel ⊢
  cases hrel with
  | none => exact .refl _
  | some hv =>
      cases hv with
      | same v => exact .refl _
      | mapping hmembers => exact hmembers

end

end Value

namespace Settings

variable {α : Type}

/-! ## Settings changed in another order -/

namespace Part

/-- The section with a setting changed, if it has one of the name. -/
def change (p : Part α) (key : String) (v : Value) (s : α) : α := (p.set? key v s).getD s

/-- Changes of different settings commute. -/
def Commutes (p : Part α) : Prop :=
  ∀ {key key' : String}, key ≠ key' → ∀ (v v' : Value) (s : α),
    p.change key v (p.change key' v' s) = p.change key' v' (p.change key v s)

theorem commutes_rulePart : rulePart.Commutes := by
  intro key key' hne v v' s
  show (setRule key v ((setRule key' v' s).getD s)).getD ((setRule key' v' s).getD s) =
    (setRule key' v' ((setRule key v s).getD s)).getD ((setRule key v s).getD s)
  unfold setRule
  split <;> split <;> first
    | contradiction
    | (cases h : s.guise.lacks "ignore" <;> simp [h])

theorem commutes_outputPart : outputPart.Commutes := by
  intro key key' hne v v' s
  show (setOutput key v ((setOutput key' v' s).getD s)).getD ((setOutput key' v' s).getD s) =
    (setOutput key' v' ((setOutput key v s).getD s)).getD ((setOutput key v s).getD s)
  unfold setOutput
  split <;> split <;> first | contradiction | rfl

theorem commutes_loggingPart : loggingPart.Commutes := by
  intro key key' hne v v' s
  show (setLogging key v ((setLogging key' v' s).getD s)).getD ((setLogging key' v' s).getD s) =
    (setLogging key' v' ((setLogging key v s).getD s)).getD ((setLogging key v s).getD s)
  unfold setLogging
  split <;> split <;> first | contradiction | rfl

theorem commutes_discoveryPart : discoveryPart.Commutes := by
  intro key key' hne v v' s
  show (setDiscovery key v ((setDiscovery key' v' s).getD s)).getD
      ((setDiscovery key' v' s).getD s) =
    (setDiscovery key' v' ((setDiscovery key v s).getD s)).getD ((setDiscovery key v s).getD s)
  unfold setDiscovery
  split <;> split <;> first
    | contradiction
    | (cases h : s.guise.lacks "extensions" <;> cases h' : s.guise.lacks "exclude_dirs" <;>
        simp [h, h'])

/-- Settings may be changed in any order, as long as none is changed twice. -/
theorem setAll_perm {p : Part α} (hp : p.Commutes) {members members' : List (Value × Value)}
    (hobject : Value.IsObject members) (h : members.Perm members') (s : α) :
    p.setAll s members' = p.setAll s members := by
  induction h generalizing s with
  | nil => rfl
  | cons e _ ih =>
      cases hobject with
      | cons _ rest => exact ih rest _
  | swap e e' members =>
      cases hobject with
      | cons new rest =>
          cases rest with
          | cons _ _ =>
              rw [Value.textKeys_text_cons, List.mem_cons, not_or] at new
              exact congrArg (p.setAll · members) (hp new.1 _ _ s)
  | trans h _ ih ih' => rw [ih' (hobject.perm h), ih hobject]

end Part

/-! ## Reading settings and unknown members -/

/-- What the members of the sections set are settings: the others are unknown and set nothing. -/
def SetsFieldsOnly (file : Value) : Prop :=
  ∀ topic : Topic, ∀ e ∈ file.membersOf topic.name,
    ∃ key, e.1 = .text key ∧ (key ∈ topic.fields ∨ IsUnknown topic key [])

/-- What is remarked on members of a section. -/
def unknownIn (topic : Topic) (members : List (Value × Value)) : List Remark :=
  (Value.textKeys members).filterMap fun key =>
    if key ∈ topic.own then none else some (.unknown topic.name key)

/-- What is remarked on a section of a file. -/
def remarksOn (file : Value) (topic : Topic) : List Remark :=
  match file.member? topic.name with
  | none => []
  | some (.mapping members) => unknownIn topic members
  | some _ => [.notMapping topic.name]

theorem Part.readMembers_genuine {p : Part α} {topic : Topic} (hp : p.Lawful topic) {s : α}
    (hs : p.guise s = {}) {members : List (Value × Value)}
    (h : ∀ e ∈ members,
      ∃ key, e.1 = .text key ∧ (key ∈ topic.fields ∨ IsUnknown topic key [])) :
    p.readMembers s members = (unknownIn topic members, .ok (p.setAll s members)) := by
  induction members generalizing s with
  | nil => rfl
  | cons e members ih =>
      obtain ⟨k, v⟩ := e
      rw [List.forall_mem_cons] at h
      obtain ⟨⟨key, rfl, hkey⟩, hrest⟩ := h
      unfold unknownIn
      rw [Value.textKeys_text_cons, List.filterMap_cons, setAll_cons_text, readMembers]
      rcases hkey with hfield | hunknown
      · have hown : key ∈ topic.own := fields_subset_own topic key hfield
        obtain ⟨s', hset⟩ := hp.settable hown v (by rw [hs])
        rw [hset, if_pos hown]
        exact ih (by rw [hp.guise_set hset, hs]) hrest
      · have hhas : (p.guise s).has key = false := by rw [hs]; rfl
        rw [hp.unset hunknown.own, setMember_unknown hunknown hhas, if_neg hunknown.own, ← hp.name]
        dsimp only
        rw [ih hs hrest, hp.name]
        rfl

theorem Part.readFrom_genuine {p : Part α} {topic : Topic} (hp : p.Lawful topic)
    {entries : List (Value × Value)} (h : SetsFieldsOnly (.mapping entries)) :
    p.readFrom (.mapping entries) =
      (remarksOn (.mapping entries) topic,
        .ok (p.setAll p.default ((Value.mapping entries).membersOf topic.name))) := by
  have hread := readMembers_genuine hp hp.guise_default (h topic)
  rw [readFrom_mapping, hp.name]
  unfold remarksOn
  unfold Value.membersOf Value.member? at hread ⊢
  dsimp only at hread ⊢
  cases hpart : Value.lookup topic.name entries with
  | none => rfl
  | some v =>
      rw [hpart] at hread
      cases v with
      | mapping members => exact hread
      | _ => rw [← hp.name]; rfl

/-- A file that sets nothing but settings is read, section by section. -/
theorem ofFile_genuine {entries : List (Value × Value)} (h : SetsFieldsOnly (.mapping entries)) :
    ofFile (.mapping entries) =
      ([Topic.rule, .output, .logging, .discovery].flatMap (remarksOn (.mapping entries)),
        .ok (ofSettings (.mapping entries))) := by
  rw [ofFile_mapping, Part.readFrom_genuine Part.lawful_rulePart h,
    Part.readFrom_genuine Part.lawful_outputPart h,
    Part.readFrom_genuine Part.lawful_loggingPart h,
    Part.readFrom_genuine Part.lawful_discoveryPart h]
  rfl

/-! ## The file in another order -/

section

variable {entries entries' : List (Value × Value)}

theorem remarksOn_perm (h : Value.Reorders entries entries') (hobject : Value.IsObject entries)
    (topic : Topic) :
    (remarksOn (.mapping entries) topic).Perm (remarksOn (.mapping entries') topic) := by
  have hrel := h.lookup hobject topic.name
  unfold remarksOn Value.member?
  dsimp only
  generalize Value.lookup topic.name entries = given at hrel ⊢
  generalize Value.lookup topic.name entries' = given' at hrel ⊢
  cases hrel with
  | none => exact .refl _
  | some hv =>
      cases hv with
      | same v => exact .refl _
      | mapping hmembers => exact (hmembers.filterMap _).filterMap _

theorem SetsFieldsOnly.reorders (h : SetsFieldsOnly (.mapping entries))
    (hreorders : Value.Reorders entries entries') (hobject : Value.IsObject entries) :
    SetsFieldsOnly (.mapping entries') := by
  intro topic e he
  exact h topic e ((hreorders.membersOf hobject topic.name).mem_iff.mpr he)

/-- The settings of a file do not depend on the order in which it gives them. -/
theorem ofSettings_reorders (hnative : Json.IsNative (.mapping entries))
    (h : Value.Reorders entries entries') :
    ofSettings (.mapping entries') = ofSettings (.mapping entries) := by
  have hobject : Value.IsObject entries := by
    cases hnative with
    | mapping once _ => exact once
  unfold ofSettings
  rw [Part.setAll_perm Part.commutes_rulePart (Value.isObject_membersOf hnative _)
      (h.membersOf hobject _),
    Part.setAll_perm Part.commutes_outputPart (Value.isObject_membersOf hnative _)
      (h.membersOf hobject _),
    Part.setAll_perm Part.commutes_loggingPart (Value.isObject_membersOf hnative _)
      (h.membersOf hobject _),
    Part.setAll_perm Part.commutes_discoveryPart (Value.isObject_membersOf hnative _)
      (h.membersOf hobject _)]

end

/-! ## Settings that are written -/

/-- The settings are as they are made, but for the values that they have. -/
structure IsGenuine (s : Settings) : Prop where
  reading : s.rule.inPlaceOfReading = none
  rule : s.rule.guise = {}
  output : s.output.guise = {}
  logging : s.logging.guise = {}
  discovery : s.discovery.guise = {}

theorem isGenuine_ofSettings {file : Value} (h : SetsFieldsOnly file) :
    (ofSettings file).IsGenuine where
  reading := by
    refine inPlaceOfReading_setAll fun key v hmem => ?_
    rintro rfl
    obtain ⟨name, heq, hname⟩ := h .rule _ hmem
    cases heq
    rcases hname with hfield | hunknown
    · exact absurd hfield (by decide)
    · exact hunknown.own (by decide)
  rule := Part.guise_setAll Part.lawful_rulePart {} _
  output := Part.guise_setAll Part.lawful_outputPart {} _
  logging := Part.guise_setAll Part.lawful_loggingPart {} _
  discovery := Part.guise_setAll Part.lawful_discoveryPart {} _

namespace IsGenuine

variable {s : Settings}

theorem apply (h : s.IsGenuine) (env : Environment) : (env.apply s).IsGenuine where
  reading := h.reading
  rule := by
    dsimp only [Environment.apply]
    rw [h.rule]
    cases env.text? "NO_IMPLICIT_DEPS_IGNORE" <;> rfl
  output := h.output
  logging := h.logging
  discovery := h.discovery

theorem flag_flag (env : Environment) (name : String) (v : Value) :
    env.flag name (env.flag name v) = env.flag name v := by
  unfold Environment.flag
  cases env.text? name <;> rfl

/-- The variables of the environment are given to settings once and for all. -/
theorem apply_apply (h : s.IsGenuine) (env : Environment) :
    env.apply (env.apply s) = env.apply s := by
  obtain ⟨⟨dev, optional, ignore, reading, guise⟩, output, logging, discovery⟩ := s
  obtain rfl : guise = {} := h.rule
  unfold Environment.apply
  simp only [flag_flag]
  cases env.text? "NO_IMPLICIT_DEPS_IGNORE" <;>
    cases env.text? "NO_IMPLICIT_DEPS_OUTPUT_FORMAT" <;>
    cases env.text? "NO_IMPLICIT_DEPS_LOG_LEVEL" <;> rfl

/-- The value that settings are written as. -/
theorem toValue_eq (h : s.IsGenuine) :
    s.toValue = .ok (sectionsValue s.rule.members s.output.members s.logging.members
      s.discovery.members) := by
  obtain ⟨⟨dev, optional, ignore, reading, guise⟩, ⟨format, file, quiet, verbose, fails, guise'⟩,
    ⟨level, json, guise''⟩, ⟨extensions, excluded, guise'''⟩⟩ := s
  obtain rfl : guise = {} := h.rule
  obtain rfl : guise' = {} := h.output
  obtain rfl : guise'' = {} := h.logging
  obtain rfl : guise''' = {} := h.discovery
  rfl

/-- What settings are written as gives them again. -/
theorem ofFile_written (h : s.IsGenuine) :
    ofFile (sectionsValue s.rule.members s.output.members s.logging.members
      s.discovery.members) = ([], .ok s) := by
  obtain ⟨⟨dev, optional, ignore, reading, guise⟩, ⟨format, file, quiet, verbose, fails, guise'⟩,
    ⟨level, json, guise''⟩, ⟨extensions, excluded, guise'''⟩⟩ := s
  obtain rfl : reading = none := h.reading
  obtain rfl : guise = {} := h.rule
  obtain rfl : guise' = {} := h.output
  obtain rfl : guise'' = {} := h.logging
  obtain rfl : guise''' = {} := h.discovery
  rfl

end IsGenuine

theorem apply_nil (s : Settings) : Environment.apply [] s = s := rfl

end Settings

end ImportAudit
