/-
# ImportAudit.Proofs.Settings.Usable — options of the rule that are of use.

The options of a section are read as a whole, so two truth values and a list of texts are options
and nothing else is (`ofValue_members_eq_ok_iff`).  A section that lists its settings and has them
all can therefore be read exactly if they are of use (`toOptions_iff_usable`), and then they can be
merged with any flags (`merged_of_usable`).
-/
import ImportAudit.Proofs.Settings.Sections

namespace ImportAudit

namespace RuleSettings

/-- The options of a section are two truth values and a list of texts. -/
structure Usable (s : RuleSettings) : Prop where
  dev : ∃ b, s.dev = .bool b
  optional : ∃ b, s.optional = .bool b
  ignore : ∃ names, s.ignore = .ofTexts names

end RuleSettings

namespace RuleOptions

theorem textsOf?_ofTexts (names : List String) : textsOf? (names.map .text) = some names := by
  induction names with
  | nil => rfl
  | cons name names ih => rw [List.map_cons, textsOf?, ih, Option.map_some]

theorem eq_of_textsOf? {items : List Value} {names : List String}
    (h : textsOf? items = some names) : items = names.map .text := by
  induction items generalizing names with
  | nil =>
      cases h
      rfl
  | cons v vs ih =>
      cases v with
      | text s =>
          rw [textsOf?] at h
          obtain ⟨rest, hrest, rfl⟩ := Option.map_eq_some_iff.mp h
          rw [ih hrest, List.map_cons]
      | _ => cases h

end RuleOptions

namespace RuleSettings

theorem lookup_members (s : RuleSettings) :
    let entries := s.members.map fun m => (Value.text m.1, m.2)
    Value.lookup "dev" entries = some s.dev ∧ Value.lookup "optional" entries = some s.optional ∧
      Value.lookup "ignore" entries = some s.ignore := by
  simp [members, Value.lookup]

/-- A section stands for options if it has two truth values and a list of texts, and then for
these. -/
theorem ofValue_members_eq_ok_iff {s : RuleSettings} {o : RuleOptions} :
    RuleOptions.ofValue (.ofMembers s.members) = .ok o ↔
      s.dev = .bool o.dev ∧ s.optional = .bool o.optional ∧ s.ignore = .ofTexts o.ignore := by
  obtain ⟨hdev, hoptional, hignore⟩ := s.lookup_members
  simp only [RuleOptions.ofValue, Value.ofMembers, RuleOptions.argument, RuleOptions.ofEntries,
    Settings.unknownKeys_members, RuleOptions.readFlag, RuleOptions.readIgnore, hdev, hoptional,
    hignore]
  constructor
  · intro ho
    cases hd : s.dev with
    | bool d =>
        cases hp : s.optional with
        | bool p =>
            cases hi : s.ignore with
            | list items =>
                cases hn : RuleOptions.textsOf? items with
                | some names =>
                    rw [RuleOptions.eq_of_textsOf? hn]
                    simp only [hd, hp, hi, hn, Except.ok.injEq] at ho
                    subst ho
                    exact ⟨rfl, rfl, rfl⟩
                | none => simp [hd, hp, hi, hn] at ho
            | _ => simp [hd, hp, hi] at ho
        | _ => simp [hd, hp] at ho
    | _ => simp [hd] at ho
  · rintro ⟨hd, hp, hi⟩
    simp [hd, hp, hi, Value.ofTexts, RuleOptions.textsOf?_ofTexts]

/-- A section whose reading has its place can be read if its options are of use, and only then; if
it lists no settings, it can be read whatever they are. -/
theorem toOptions_iff_usable {s : RuleSettings} (h : s.inPlaceOfReading = none) :
    (∃ o, s.toOptions = .ok o) ↔
      s.guise.listing = none ∧ s.guise.lacks "ignore" = false ∧ s.Usable ∨
        s.guise.listing = some (.mapping []) := by
  have hread : ∀ o, s.toOptions = .ok o ↔
      ∃ listed, s.listed = .ok listed ∧ RuleOptions.ofValue (.ofMembers listed) = .ok o := by
    intro o
    unfold toOptions
    rw [h]
    cases s.listed with
    | error f => simp
    | ok listed =>
        dsimp only
        cases hlisted : RuleOptions.ofValue (.ofMembers listed) <;> simp [hlisted]
  have husable : (∃ o, RuleOptions.ofValue (.ofMembers s.members) = .ok o) ↔ s.Usable := by
    simp only [ofValue_members_eq_ok_iff]
    constructor
    · rintro ⟨o, hdev, hoptional, hignore⟩
      exact ⟨⟨o.dev, hdev⟩, ⟨o.optional, hoptional⟩, ⟨o.ignore, hignore⟩⟩
    · rintro ⟨⟨dev, hdev⟩, ⟨optional, hoptional⟩, ⟨names, hignore⟩⟩
      exact ⟨⟨dev, optional, names⟩, hdev, hoptional, hignore⟩
  simp only [hread, listed, Settings.listed_eq_ok_iff, List.forall_mem_singleton, ← husable]
  constructor
  · rintro ⟨o, listed, ⟨hlisting, hlacks, rfl⟩ | ⟨hlisting, -⟩, ho⟩
    · exact .inl ⟨hlisting, hlacks, o, ho⟩
    · exact .inr hlisting
  · rintro (⟨hlisting, hlacks, o, ho⟩ | hlisting)
    · exact ⟨o, s.members, .inl ⟨hlisting, hlacks, rfl⟩, ho⟩
    · exact ⟨{}, [], .inr ⟨hlisting, rfl⟩, Settings.ofValue_ofMembers_nil⟩

/-- Merged options are made of two truth values and of texts. -/
theorem merged_eq_ok_iff {s : RuleSettings} {flags o : RuleOptions} :
    s.merged flags = .ok o ↔ ∃ ignored, s.ignored = .ok ignored ∧
      (if flags.dev then .bool true else s.dev) = .bool o.dev ∧
      (if flags.optional then .bool true else s.optional) = .bool o.optional ∧
      ignored ++ flags.ignore.map .text = o.ignore.map .text := by
  unfold merged
  cases s.ignored with
  | error f => simp
  | ok ignored =>
      have hread := ofValue_members_eq_ok_iff (o := o) (s := { s with
        dev := if flags.dev then .bool true else s.dev
        optional := if flags.optional then .bool true else s.optional
        ignore := .list (ignored ++ flags.ignore.map .text) })
      simp only [members, Value.ofTexts, Value.list.injEq] at hread
      dsimp only
      simp only [Except.ok.injEq, exists_eq_left', ← hread]
      cases RuleOptions.ofValue (.ofMembers
        [("dev", if flags.dev then .bool true else s.dev),
          ("optional", if flags.optional then .bool true else s.optional),
          ("ignore", .list (ignored ++ flags.ignore.map .text))]) <;> simp

/-- Options of use are merged with any flags: a flag that is set outranks an option, and packages
are ignored beside others. -/
theorem merged_of_usable {s : RuleSettings} {dev optional : Bool} {names : List String}
    (hlacks : s.guise.lacks "ignore" = false) (hdev : s.dev = .bool dev)
    (hoptional : s.optional = .bool optional) (hignore : s.ignore = .ofTexts names)
    (flags : RuleOptions) :
    s.merged flags =
      .ok ⟨flags.dev || dev, flags.optional || optional, names ++ flags.ignore⟩ := by
  have hignored : s.ignored = .ok (names.map .text) := by
    rw [ignored, Settings.member_eq_ok_iff.mpr ⟨hlacks, rfl⟩, hignore]
    rfl
  refine merged_eq_ok_iff.mpr ⟨_, hignored, ?_, ?_, List.map_append.symm⟩
  · rw [hdev]
    cases flags.dev <;> rfl
  · rw [hoptional]
    cases flags.optional <;> rfl

/-- A section whose options are refused lists them, and has them all. -/
theorem listed_of_toOptions_error {s : RuleSettings} {f : OptionFault}
    (h : s.toOptions = .error (.options f)) :
    s.guise.listing = none ∧ s.guise.lacks "ignore" = false := by
  unfold toOptions at h
  split at h
  · cases h
  split at h
  · cases h
  · next listed hlisted =>
      rcases Settings.listed_eq_ok_iff.mp hlisted with ⟨hlisting, hlacks, -⟩ | ⟨-, rfl⟩
      · exact ⟨hlisting, hlacks "ignore" List.mem_cons_self⟩
      · rw [Settings.ofValue_ofMembers_nil] at h
        cases h

end RuleSettings

/-- A section that passes validation can be read. -/
theorem Settings.toOptions_of_ruleObjections {s : RuleSettings} (h : ruleObjections s = .ok []) :
    s.inPlaceOfReading = none ∧ ∃ o, s.toOptions = .ok o := by
  cases hread : s.toOptions with
  | ok o =>
      refine ⟨?_, o, rfl⟩
      unfold RuleSettings.toOptions at hread
      cases hplace : s.inPlaceOfReading with
      | none => rfl
      | some v => rw [hplace] at hread; cases hread
  | error f =>
      unfold ruleObjections at h
      rw [hread] at h
      cases f <;> cases h

end ImportAudit
