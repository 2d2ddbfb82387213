/-
# ImportAudit.Proofs.Settings.Sections — objections and the sections they are to.

The objections to settings are those to each of their sections (`objectionsTo_of_objections`), a
section is judged by itself (`objectionsTo_congr`), and the one that holds by default is never
objected to (`objectionsTo_default`).  So settings in which the sections that are objected to were
replaced are not objected to any more (`objections_reset`).  An objection begins with the name of
its section and of no other one (`headed_iff`).
-/
import ImportAudit.Settings.Validation

namespace ImportAudit.Settings

/-- The name of a section. -/
def Topic.name : Topic → String
  | .rule => "rule"
  | .output => "output"
  | .logging => "logging"
  | .discovery => "discovery"

/-- An objection is to the section whose name its wording begins with. -/
def Objection.Heads (o : Objection) (topic : Topic) : Prop :=
  topic.name.toList <+: o.message.toList

/-- Two settings have one section in common. -/
def SameIn (s t : Settings) : Topic → Prop
  | .rule => s.rule = t.rule
  | .output => s.output = t.output
  | .logging => s.logging = t.logging
  | .discovery => s.discovery = t.discovery

theorem SameIn.refl (s : Settings) (topic : Topic) : s.SameIn s topic := by
  cases topic <;> rfl

theorem SameIn.symm {s t : Settings} {topic : Topic} (h : s.SameIn t topic) :
    t.SameIn s topic := by
  cases topic <;> exact Eq.symm h

theorem SameIn.trans {s t u : Settings} {topic : Topic} (h : s.SameIn t topic)
    (h' : t.SameIn u topic) : s.SameIn u topic := by
  cases topic <;> exact Eq.trans h h'

/-- The objections to a section. -/
def objectionsTo (s : Settings) : Topic → Except Fault (List Objection)
  | .rule => ruleObjections s.rule
  | .output => .ok (outputObjections s.output)
  | .logging => .ok (loggingObjections s.logging)
  | .discovery => discoveryObjections s.discovery

/-! ## The options of the rule -/

theorem member_eq_ok_iff {g : Guise} {owner name : String} {v w : Value} :
    g.member owner name v = .ok w ↔ g.lacks name = false ∧ w = v := by
  unfold Guise.member
  cases g.lacks name <;> simp [eq_comm]

/-- What a section lists are its settings, all of which it has, or nothing. -/
theorem listed_eq_ok_iff {g : Guise} {owner : String} {bare : List String}
    {members listed : List (String × Value)} :
    g.listed owner bare members = .ok listed ↔
      g.listing = none ∧ (∀ name ∈ bare, g.lacks name = false) ∧ listed = members ∨
        g.listing = some (.mapping []) ∧ listed = [] := by
  have hnone : bare.find? g.lacks = none ↔ ∀ name ∈ bare, g.lacks name = false := by
    simp [List.find?_eq_none]
  unfold Guise.listed
  split
  · next hlisting =>
      rw [← hnone]
      cases bare.find? g.lacks <;> simp [hlisting, eq_comm]
  · next hlisting =>
      rw [Except.ok.injEq, eq_comm]
      simp [hlisting]
  · next hlisting => simp [hlisting]
  · next v hempty hentries hlisting =>
      have hv : some v ≠ some (.mapping []) := fun h => hempty (Option.some.inj h)
      simp only [hlisting, hv, reduceCtorEq, false_and, or_self]

theorem ofValue_ofMembers_nil : RuleOptions.ofValue (.ofMembers []) = .ok {} := by
  simp [RuleOptions.ofValue, Value.ofMembers, RuleOptions.argument, RuleOptions.ofEntries,
    RuleOptions.unknownKeys, RuleOptions.readFlag, RuleOptions.readIgnore, Value.lookup,
    Text.sortedSet, Text.sorted]

/-- The section names no unknown option. -/
theorem unknownKeys_members (s : RuleSettings) :
    Text.sortedSet (RuleOptions.unknownKeys (s.members.map fun m => (.text m.1, m.2))) = [] := by
  have hnone : RuleOptions.unknownKeys (s.members.map fun m => (.text m.1, m.2)) = [] := by
    simp [RuleOptions.unknownKeys, RuleSettings.members, RuleOptions.names]
  rw [hnone]
  simp [Text.sortedSet, Text.sorted]

theorem eq_of_readFlag_error {name : String} {entries : List (Value × Value)} {f : OptionFault}
    (h : RuleOptions.readFlag name entries = .error f) : f = .notBoolean name := by
  unfold RuleOptions.readFlag at h
  split at h <;> cases h
  rfl

theorem eq_of_readIgnore_error {entries : List (Value × Value)} {f : OptionFault}
    (h : RuleOptions.readIgnore entries = .error f) : f = .ignoreNotTexts := by
  unfold RuleOptions.readIgnore at h
  split at h
  · cases h
  · split at h <;> cases h
    rfl
  · cases h
    rfl

/-- The faults of the members of a section are those of its three options. -/
theorem mem_of_ofValue_members_error {s : RuleSettings} {f : OptionFault}
    (h : RuleOptions.ofValue (.ofMembers s.members) = .error f) :
    f ∈ [.notBoolean "dev", .notBoolean "optional", OptionFault.ignoreNotTexts] := by
  simp only [RuleOptions.ofValue, Value.ofMembers, RuleOptions.argument,
    RuleOptions.ofEntries, unknownKeys_members] at h
  generalize (s.members.map fun m => (Value.text m.1, m.2)) = entries at h
  cases hdev : RuleOptions.readFlag "dev" entries with
  | error e =>
      rw [hdev] at h
      cases h
      rw [eq_of_readFlag_error hdev]
      simp
  | ok dev =>
      rw [hdev] at h
      cases hopt : RuleOptions.readFlag "optional" entries with
      | error e =>
          rw [hopt] at h
          cases h
          rw [eq_of_readFlag_error hopt]
          simp
      | ok optional =>
          rw [hopt] at h
          cases hign : RuleOptions.readIgnore entries with
          | error e =>
              rw [hign] at h
              cases h
              rw [eq_of_readIgnore_error hign]
              simp
          | ok ignore => rw [hign] at h; cases h

/-- The faults of the section are those of its three options. -/
theorem mem_of_toOptions_error {s : RuleSettings} {f : OptionFault}
    (h : s.toOptions = .error (.options f)) :
    f ∈ [.notBoolean "dev", .notBoolean "optional", OptionFault.ignoreNotTexts] := by
  unfold RuleSettings.toOptions at h
  cases hplace : s.inPlaceOfReading with
  | some v => rw [hplace] at h; cases h
  | none =>
      rw [hplace] at h
      cases hlisted : s.listed with
      | error m => rw [hlisted] at h; cases h
      | ok listed =>
          rw [hlisted] at h
          dsimp only at h
          cases hread : RuleOptions.ofValue (.ofMembers listed) with
          | ok o => rw [hread] at h; cases h
          | error g =>
              rw [hread] at h
              cases h
              rcases listed_eq_ok_iff.mp hlisted with ⟨-, -, rfl⟩ | ⟨-, rfl⟩
              · exact mem_of_ofValue_members_error hread
              · rw [ofValue_ofMembers_nil] at hread
                cases hread

theorem toOptions_default : ({} : RuleSettings).toOptions = .ok {} := by
  have hlisted : ({} : RuleSettings).listed = .ok (RuleSettings.members {}) := rfl
  simp only [RuleSettings.toOptions, hlisted, RuleOptions.ofValue, Value.ofMembers,
    RuleOptions.argument, RuleOptions.ofEntries, unknownKeys_members]
  rfl

/-! ## Each section by itself -/

theorem objectionsTo_congr {s t : Settings} {topic : Topic} (h : s.SameIn t topic) :
    s.objectionsTo topic = t.objectionsTo topic := by
  cases topic with
  | rule => exact congrArg ruleObjections h
  | output => exact congrArg (fun output => Except.ok (outputObjections output)) h
  | logging => exact congrArg (fun logging => Except.ok (loggingObjections logging)) h
  | discovery => exact congrArg discoveryObjections h

theorem topic_of_mem_objectionsTo {s : Settings} {topic : Topic} {os : List Objection}
    (h : s.objectionsTo topic = .ok os) {o : Objection} (ho : o ∈ os) : o.topic = topic := by
  cases topic with
  | rule =>
      simp only [objectionsTo, ruleObjections] at h
      split at h <;> cases h
      · cases ho
      · rw [List.mem_singleton.mp ho]; rfl
  | output =>
      cases h
      simp only [outputObjections, List.mem_append] at ho
      rcases ho with ho | ho <;> split at ho <;> simp at ho <;> rw [ho] <;> rfl
  | logging =>
      cases h
      simp only [loggingObjections] at ho
      split at ho <;> simp at ho
      rw [ho]; rfl
  | discovery =>
      simp only [objectionsTo, discoveryObjections] at h
      split at h
      · cases h
      split at h <;> cases h
      rcases List.mem_append.mp ho with ho | ho
      · split at ho <;> simp at ho
        rw [ho]; rfl
      · obtain ⟨v, -, hv⟩ := List.mem_filterMap.mp ho
        unfold extensionObjection at hv
        split at hv <;> cases hv
        rfl

theorem objectionsTo_default (topic : Topic) : ({} : Settings).objectionsTo topic = .ok [] := by
  cases topic with
  | rule => rw [objectionsTo, ruleObjections, toOptions_default]
  | output => rfl
  | logging => rfl
  | discovery => rfl

/-! ## All sections together -/

theorem eq_ok_of_toOption {ε α : Type} {r : Except ε α} {a : α} (h : r.toOption = some a) :
    r = .ok a := by
  cases r with
  | error f => cases h
  | ok b =>
      cases h
      rfl

/-- The objections to settings, by section, in the order in which the sections are judged. -/
theorem objections_eq_append {s : Settings} {os : List Objection} (h : s.objections = .ok os) :
    ∃ rule discovery, s.objectionsTo .rule = .ok rule ∧ s.objectionsTo .discovery = .ok discovery ∧
      os = rule ++ outputObjections s.output ++ loggingObjections s.logging ++ discovery := by
  unfold objections at h
  cases hrule : ruleObjections s.rule with
  | error f => rw [hrule] at h; cases h
  | ok rule =>
      rw [hrule] at h
      cases hdiscovery : discoveryObjections s.discovery with
      | error f => rw [hdiscovery] at h; cases h
      | ok discovery =>
          rw [hdiscovery] at h
          exact ⟨rule, discovery, hrule, hdiscovery, (Except.ok.inj h).symm⟩

/-- The objections to a section are those of all that are to it. -/
theorem objectionsTo_of_objections {s : Settings} {os : List Objection}
    (h : s.objections = .ok os) (topic : Topic) :
    s.objectionsTo topic = .ok (os.filter fun o => o.topic = topic) := by
  obtain ⟨rule, discovery, hrule, hdiscovery, rfl⟩ := objections_eq_append h
  have houtput : s.objectionsTo .output = .ok (outputObjections s.output) := rfl
  have hlogging : s.objectionsTo .logging = .ok (loggingObjections s.logging) := rfl
  -- of the objections to a section all are kept if it is the one asked for, and else none
  have keep : ∀ {t : Topic} {part : List Objection}, s.objectionsTo t = .ok part →
      part.filter (fun o => o.topic = topic) = if t = topic then part else [] := by
    intro t part hpart
    by_cases ht : t = topic
    · rw [if_pos ht, List.filter_eq_self]
      intro o ho
      simpa [ht] using topic_of_mem_objectionsTo hpart ho
    · rw [if_neg ht, List.filter_eq_nil_iff]
      intro o ho
      rw [topic_of_mem_objectionsTo hpart ho]
      simpa using ht
  simp only [List.filter_append, keep hrule, keep houtput, keep hlogging, keep hdiscovery]
  cases topic with
  | rule => simpa using hrule
  | output => simpa using houtput
  | logging => simpa using hlogging
  | discovery => simpa using hdiscovery

/-- The objections to the rule are to one of its three options. -/
theorem mem_of_options_mem {s : Settings} {os : List Objection} (h : s.objections = .ok os)
    {f : OptionFault} (hf : .options f ∈ os) :
    f ∈ [.notBoolean "dev", .notBoolean "optional", OptionFault.ignoreNotTexts] := by
  have hmem : .options f ∈ os.filter fun o => o.topic = .rule :=
    List.mem_filter.mpr ⟨hf, decide_eq_true rfl⟩
  have hrule : ruleObjections s.rule = _ := objectionsTo_of_objections h .rule
  unfold ruleObjections at hrule
  split at hrule
  · rw [← Except.ok.inj hrule] at hmem
    cases hmem
  · next g hg =>
      rw [← Except.ok.inj hrule, List.mem_singleton] at hmem
      cases hmem
      exact mem_of_toOptions_error hg
  · cases hrule

theorem objections_eq_nil {s : Settings} (h : ∀ topic, s.objectionsTo topic = .ok []) :
    s.objections = .ok [] := by
  have hrule : ruleObjections s.rule = .ok [] := h .rule
  have houtput : outputObjections s.output = [] := Except.ok.inj (h .output)
  have hlogging : loggingObjections s.logging = [] := Except.ok.inj (h .logging)
  have hdiscovery : discoveryObjections s.discovery = .ok [] := h .discovery
  simp [objections, hrule, houtput, hlogging, hdiscovery]

/-! ## Replacing what is objected to -/

/-- A section that is objected to becomes the one that holds by default, and any other one stays. -/
theorem reset_sameIn (s : Settings) (os : List Objection) (topic : Topic) :
    (s.reset os).SameIn (if os.any fun o => o.topic = topic then {} else s) topic := by
  cases topic <;> (dsimp only [SameIn, reset]; split <;> rfl)

/-- What becomes of a section depends on nothing but that section. -/
theorem reset_sameIn_of_sameIn {s t : Settings} {os ps : List Objection} {topic : Topic}
    (hs : s.objections = .ok os) (ht : t.objections = .ok ps) (h : s.SameIn t topic) :
    (s.reset os).SameIn (t.reset ps) topic := by
  have hany : (os.any fun o => o.topic = topic) = ps.any fun o => o.topic = topic := by
    have hos := objectionsTo_of_objections hs topic
    rw [objectionsTo_congr h, objectionsTo_of_objections ht topic] at hos
    have hfilter := congrArg (fun os => os.any fun _ => true) (Except.ok.inj hos)
    simpa using hfilter.symm
  refine (reset_sameIn s os topic).trans (SameIn.trans ?_ (reset_sameIn t ps topic).symm)
  rw [hany]
  split
  · exact .refl _ _
  · exact h

theorem objections_reset {s : Settings} {os : List Objection} (h : s.objections = .ok os) :
    (s.reset os).objections = .ok [] := by
  apply objections_eq_nil
  intro topic
  rw [objectionsTo_congr (reset_sameIn s os topic)]
  cases hany : os.any fun o => o.topic = topic with
  | true => exact objectionsTo_default topic
  | false =>
      have hnone : os.filter (fun o => o.topic = topic) = [] := by
        simpa using hany
      have hs := objectionsTo_of_objections h topic
      rwa [hnone] at hs

/-! ## The wording of objections -/

theorem append_of_eq {whole head tail : String} (h : whole = head ++ tail) (s : String) :
    whole ++ s = head ++ (tail ++ s) := by
  rw [h, String.append_assoc]

theorem message_eq_append (o : Objection) : ∃ rest, o.message = o.topic.name ++ rest := by
  cases o with
  | options f =>
      have hhead : "rule: " = "rule" ++ ": " := by decide
      exact ⟨_, append_of_eq hhead _⟩
  | format =>
      have hhead : "output.output_format must be one of " =
          "output" ++ ".output_format must be one of " := by decide
      exact ⟨_, append_of_eq hhead _⟩
  | fileFormat => exact ⟨".output_file can only be used with the json format", by decide⟩
  | level =>
      have hhead : "logging.log_level must be one of " =
          "logging" ++ ".log_level must be one of " := by decide
      exact ⟨_, append_of_eq hhead _⟩
  | noExtensions => exact ⟨".extensions must not be empty", by decide⟩
  | extension text =>
      have hhead : "discovery.extensions entry must start with '.': " =
          "discovery" ++ ".extensions entry must start with '.': " := by decide
      exact ⟨_, append_of_eq hhead _⟩

/-- No two sections have names with the same first letter. -/
theorem head_name_injective {t u : Topic} (h : t.name.toList.head? = u.name.toList.head?) :
    t = u := by
  revert h
  cases t <;> cases u <;> decide

/-- An objection begins with the name of its section, and of no other one. -/
theorem headed_iff (o : Objection) (topic : Topic) : o.Heads topic ↔ o.topic = topic := by
  obtain ⟨rest, hrest⟩ := message_eq_append o
  have hlist : o.message.toList = o.topic.name.toList ++ rest.toList := by
    rw [hrest, String.toList_append]
  constructor
  · rintro ⟨rest', hrest'⟩
    rw [hlist] at hrest'
    have hhead : ∀ (t : Topic) (cs : List Char),
        (t.name.toList ++ cs).head? = t.name.toList.head? := by
      intro t cs
      cases t <;> rfl
    apply head_name_injective
    rw [← hhead o.topic rest.toList, ← hrest', hhead]
  · rintro rfl
    exact ⟨rest.toList, hlist.symm⟩

end ImportAudit.Settings
