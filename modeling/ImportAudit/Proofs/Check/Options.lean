/-
# ImportAudit.Proofs.Check.Options — what options may be written as.

Options are read from one value, which is the value that was given or the first item of a list that
is no truth value (`readsFrom_iff`).  It stands for options if it is null, true, or a mapping of
nothing but options (`ofEntries_eq_ok_iff`), and otherwise it is refused with a fault that holds of
it (`refused_of_ofEntries`).  So what `ofValue` accepts is a schema, and the options that it returns
are those that were written (`ofValue_schema`).
-/
import ImportAudit.Fault
import ImportAudit.Proofs.Json.Native
import ImportAudit.Proofs.Settings.Usable
import ImportAudit.Proofs.Text.Sorted

namespace ImportAudit

namespace RuleOptions

/-! ## The schema -/

/-- Options are read from a value itself unless it is a list, from null if a list has nothing but
truth values, and else from its first item that is none. -/
inductive ReadsFrom : Value → Value → Prop
  | itself {v : Value} (h : ∀ items, v ≠ .list items) : ReadsFrom v v
  | flags (bs : List Bool) : ReadsFrom (.list (bs.map .bool)) .null
  | behind (bs : List Bool) {v : Value} {more : List Value} (h : ∀ b, v ≠ .bool b) :
      ReadsFrom (.list (bs.map .bool ++ v :: more)) v

/-- The entries are options as they are to be, and an option without an entry is at its default. -/
structure Lists (entries : List (Value × Value)) (o : RuleOptions) : Prop where
  each : ∀ e ∈ entries, e = (.text "dev", .bool o.dev) ∨ e = (.text "optional", .bool o.optional) ∨
    e = (.text "ignore", .ofTexts o.ignore)
  dev : "dev" ∉ Value.textKeys entries → o.dev = false
  optional : "optional" ∉ Value.textKeys entries → o.optional = false
  ignore : "ignore" ∉ Value.textKeys entries → o.ignore = []

/-- The value stands for the options. -/
inductive StandsFor : Value → RuleOptions → Prop
  | null : StandsFor .null {}
  | true : StandsFor (.bool true) {}
  | mapping {entries : List (Value × Value)} {o : RuleOptions} (h : Lists entries o) :
      StandsFor (.mapping entries) o

/-- The fault is one that the value has. -/
inductive Refused : Value → OptionFault → Prop
  | notObject {v : Value} (hnull : v ≠ .null) (htrue : v ≠ .bool true)
      (hmapping : ∀ entries, v ≠ .mapping entries) : Refused v (.notObject v.typeName)
  | unknown {entries : List (Value × Value)} {unknown : List String} (hne : unknown ≠ [])
      (horder : unknown.Pairwise (· < ·))
      (h : ∀ name, name ∈ unknown ↔ name ∈ Value.textKeys entries ∧ name ∉ names) :
      Refused (.mapping entries) (.unknown unknown)
  | notBoolean {entries : List (Value × Value)} {name : String} {v : Value}
      (hname : name = "dev" ∨ name = "optional") (hentry : (.text name, v) ∈ entries)
      (hv : ∀ b, v ≠ .bool b) : Refused (.mapping entries) (.notBoolean name)
  | ignoreNotTexts {entries : List (Value × Value)} {v : Value}
      (hentry : (.text "ignore", v) ∈ entries) (hv : ∀ texts, v ≠ .ofTexts texts) :
      Refused (.mapping entries) .ignoreNotTexts

/-! ## The value that options are read from -/

theorem argument_of_readsFrom {raw v : Value} (h : ReadsFrom raw v) : argument raw = v := by
  cases h with
  | itself h =>
      unfold argument
      split
      · exact absurd rfl (h _)
      · rfl
  | flags bs =>
      induction bs with
      | nil => rfl
      | cons b bs ih => exact ih
  | @behind bs _ _ h =>
      induction bs with
      | nil =>
          cases v with
          | bool b => exact absurd rfl (h b)
          | _ => rfl
      | cons b bs ih => exact ih

theorem exists_readsFrom (raw : Value) : ∃ v, ReadsFrom raw v := by
  cases raw with
  | list items =>
      induction items with
      | nil => exact ⟨.null, .flags []⟩
      | cons w items ih =>
          obtain ⟨v, hv⟩ := ih
          cases w with
          | bool b =>
              cases hv with
              | itself h => exact absurd rfl (h items)
              | flags bs => exact ⟨.null, .flags (b :: bs)⟩
              | behind bs h => exact ⟨v, .behind (b :: bs) h⟩
          | _ => exact ⟨_, .behind [] nofun⟩
  | _ => exact ⟨_, .itself nofun⟩

theorem readsFrom_iff {raw v : Value} : ReadsFrom raw v ↔ argument raw = v := by
  constructor
  · exact argument_of_readsFrom
  · rintro rfl
    obtain ⟨v, hv⟩ := exists_readsFrom raw
    rwa [argument_of_readsFrom hv]

/-! ## The options of a mapping -/

section Entries

variable {entries : List (Value × Value)} {o : RuleOptions} {f : OptionFault}

theorem readFlag_eq_ok_iff {name : String} {b : Bool} :
    readFlag name entries = .ok b ↔ (Value.lookup name entries).getD (.bool false) = .bool b := by
  unfold readFlag
  split
  · next h => simp [h]
  · next h => simp [h]
  · next v hv h =>
      rw [h, Option.getD_some]
      exact ⟨nofun, fun heq => absurd heq (hv b)⟩

theorem ofTexts_injective {texts texts' : List String} (h : Value.ofTexts texts = .ofTexts texts') :
    texts = texts' := by
  have hread := congrArg textsOf? (Value.list.inj h)
  rw [textsOf?_ofTexts, textsOf?_ofTexts] at hread
  exact Option.some.inj hread

theorem readIgnore_eq_ok_iff {texts : List String} :
    readIgnore entries = .ok texts ↔
      (Value.lookup "ignore" entries).getD (.ofTexts []) = .ofTexts texts := by
  unfold readIgnore
  split
  · next h =>
      rw [h, Option.getD_none, Except.ok.injEq]
      exact ⟨congrArg Value.ofTexts, ofTexts_injective⟩
  · next items h =>
      rw [h, Option.getD_some]
      split
      · next found hfound =>
          rw [eq_of_textsOf? hfound, Except.ok.injEq]
          exact ⟨congrArg Value.ofTexts, ofTexts_injective⟩
      · next hnone =>
          refine ⟨nofun, fun heq => ?_⟩
          rw [Value.list.inj heq, textsOf?_ofTexts] at hnone
          cases hnone
  · next v hv h =>
      rw [h, Option.getD_some]
      exact ⟨nofun, fun heq => absurd heq (hv _)⟩

theorem mem_unknownKeys (h : Value.IsObject entries) {name : String} :
    name ∈ unknownKeys entries ↔ name ∈ Value.textKeys entries ∧ name ∉ names := by
  unfold unknownKeys
  rw [List.mem_filterMap, Value.mem_textKeys]
  constructor
  · rintro ⟨e, he, hname⟩
    obtain ⟨key, hkey⟩ := h.exists_name e he
    rw [hkey] at hname
    dsimp only at hname
    split at hname
    · cases hname
    · next hunknown =>
        cases hname
        exact ⟨⟨e.2, by rwa [← hkey]⟩, hunknown⟩
  · rintro ⟨⟨v, he⟩, hunknown⟩
    exact ⟨_, he, if_neg hunknown⟩

/-- What an option is read as is the value of every entry with its name, or the default if there is
none. -/
theorem getD_lookup_iff (h : Value.IsObject entries) {name : String} {default v : Value} :
    (Value.lookup name entries).getD default = v ↔
      (∀ w, (.text name, w) ∈ entries → w = v) ∧
        (name ∉ Value.textKeys entries → default = v) := by
  simp only [← Value.lookup_eq_some_iff h, Value.mem_textKeys]
  cases Value.lookup name entries with
  | none => simp
  | some w => simp

/-- A mapping is read one option after the other, unless a key is unknown. -/
theorem ofEntries_eq_ok_iff_read :
    ofEntries entries = .ok o ↔ Text.sortedSet (unknownKeys entries) = [] ∧
      readFlag "dev" entries = .ok o.dev ∧ readFlag "optional" entries = .ok o.optional ∧
        readIgnore entries = .ok o.ignore := by
  unfold ofEntries
  split
  · next hknown =>
      rw [hknown]
      cases readFlag "dev" entries with
      | error e => simp
      | ok dev =>
          cases readFlag "optional" entries with
          | error e => simp
          | ok optional =>
              cases readIgnore entries with
              | error e => simp
              | ok ignore =>
                  obtain ⟨dev', optional', ignore'⟩ := o
                  simp
  · next hunknown => exact ⟨nofun, fun h => absurd h.1 hunknown⟩

theorem sortedSet_unknownKeys_iff (h : Value.IsObject entries) :
    Text.sortedSet (unknownKeys entries) = [] ↔
      ∀ e ∈ entries, ∃ name ∈ names, e.1 = .text name := by
  simp only [List.eq_nil_iff_forall_not_mem, Text.mem_sortedSet, mem_unknownKeys h, not_and,
    not_not, Value.mem_textKeys]
  constructor
  · intro hknown e he
    obtain ⟨name, hname⟩ := h.exists_name e he
    exact ⟨name, hknown name ⟨e.2, by rwa [← hname]⟩, hname⟩
  · rintro hknown name ⟨v, he⟩
    obtain ⟨name', hname', heq⟩ := hknown _ he
    cases heq
    exact hname'

/-- The mappings that stand for options are those of nothing but options. -/
theorem ofEntries_eq_ok_iff (h : Value.IsObject entries) :
    ofEntries entries = .ok o ↔ Lists entries o := by
  rw [ofEntries_eq_ok_iff_read, sortedSet_unknownKeys_iff h, readFlag_eq_ok_iff,
    readFlag_eq_ok_iff, readIgnore_eq_ok_iff, getD_lookup_iff h, getD_lookup_iff h,
    getD_lookup_iff h]
  constructor
  · rintro ⟨hknown, ⟨hdev, hdev'⟩, ⟨hoptional, hoptional'⟩, hignore, hignore'⟩
    refine ⟨fun e he => ?_, ?_, ?_, ?_⟩
    · obtain ⟨name, hname, hkey⟩ := hknown e he
      obtain ⟨key, v⟩ := e
      dsimp only at hkey
      subst hkey
      simp only [names, List.mem_cons, List.not_mem_nil, or_false] at hname
      rcases hname with rfl | rfl | rfl
      · rw [hdev v he]
        exact .inl rfl
      · rw [hoptional v he]
        exact .inr (.inl rfl)
      · rw [hignore v he]
        exact .inr (.inr rfl)
    · exact fun hno => (Value.bool.inj (hdev' hno)).symm
    · exact fun hno => (Value.bool.inj (hoptional' hno)).symm
    · exact fun hno => (ofTexts_injective (hignore' hno)).symm
  · rintro ⟨heach, hdev, hoptional, hignore⟩
    refine ⟨fun e he => ?_, ⟨fun v he => ?_, fun hno => ?_⟩, ⟨fun v he => ?_, fun hno => ?_⟩,
      fun v he => ?_, fun hno => ?_⟩
    · rcases heach e he with rfl | rfl | rfl
      · exact ⟨"dev", by simp [names], rfl⟩
      · exact ⟨"optional", by simp [names], rfl⟩
      · exact ⟨"ignore", by simp [names], rfl⟩
    · simpa using heach _ he
    · rw [hdev hno]
    · simpa using heach _ he
    · rw [hoptional hno]
    · simpa using heach _ he
    · rw [hignore hno]

/-! ## Faults -/

theorem lookup_of_readFlag_error {name : String} (h : readFlag name entries = .error f) :
    f = .notBoolean name ∧ ∃ v, Value.lookup name entries = some v ∧ ∀ b, v ≠ .bool b := by
  unfold readFlag at h
  split at h <;> cases h
  next v hv hlookup => exact ⟨rfl, v, hlookup, hv⟩

theorem lookup_of_readIgnore_error (h : readIgnore entries = .error f) :
    f = .ignoreNotTexts ∧
      ∃ v, Value.lookup "ignore" entries = some v ∧ ∀ texts, v ≠ .ofTexts texts := by
  unfold readIgnore at h
  split at h
  · cases h
  · next items hlookup =>
      split at h <;> cases h
      next hnone =>
      refine ⟨rfl, .list items, hlookup, fun texts heq => ?_⟩
      rw [Value.list.inj heq, textsOf?_ofTexts] at hnone
      cases hnone
  · next v hv hlookup =>
      cases h
      exact ⟨rfl, v, hlookup, fun texts => hv _⟩

/-- What a mapping is refused for is so. -/
theorem refused_of_ofEntries (h : Value.IsObject entries) (hread : ofEntries entries = .error f) :
    Refused (.mapping entries) f := by
  unfold ofEntries at hread
  split at hread
  · split at hread
    · next hdev =>
        cases hread
        obtain ⟨rfl, v, hlookup, hv⟩ := lookup_of_readFlag_error hdev
        exact .notBoolean (.inl rfl) ((Value.lookup_eq_some_iff h).mp hlookup) hv
    split at hread
    · next hoptional =>
        cases hread
        obtain ⟨rfl, v, hlookup, hv⟩ := lookup_of_readFlag_error hoptional
        exact .notBoolean (.inr rfl) ((Value.lookup_eq_some_iff h).mp hlookup) hv
    split at hread
    · next hignore =>
        cases hread
        obtain ⟨rfl, v, hlookup, hv⟩ := lookup_of_readIgnore_error hignore
        exact .ignoreNotTexts ((Value.lookup_eq_some_iff h).mp hlookup) hv
    · cases hread
  · next hne =>
      cases hread
      refine .unknown hne ?_ fun name => ?_
      · exact (Text.pairwise_sorted _).and (Text.nodup_sortedSet _)
          |>.imp fun hab => lt_of_le_of_ne hab.1 hab.2
      · rw [Text.mem_sortedSet, mem_unknownKeys h]

end Entries

/-! ## Reading -/

theorem ReadsFrom.isNative {raw v : Value} (h : ReadsFrom raw v) (hraw : Json.IsNative raw) :
    Json.IsNative v := by
  cases h with
  | itself => exact hraw
  | flags => exact .null
  | behind =>
      cases hraw with
      | list hitems => exact hitems v (List.mem_append_right _ List.mem_cons_self)

theorem ofValue_eq_ok_iff {raw : Value} (h : Json.IsNative raw) {o : RuleOptions} :
    ofValue raw = .ok o ↔ ∃ v, ReadsFrom raw v ∧ StandsFor v o := by
  simp only [readsFrom_iff, exists_eq_left']
  have hnative : Json.IsNative (argument raw) := (readsFrom_iff.mpr rfl).isNative h
  unfold ofValue
  generalize argument raw = v at hnative ⊢
  cases hnative with
  | null =>
      refine ⟨fun hok => ?_, fun hstands => ?_⟩
      · cases hok
        exact .null
      · cases hstands
        rfl
  | bool b =>
      cases b with
      | false => exact ⟨nofun, nofun⟩
      | true =>
          refine ⟨fun hok => ?_, fun hstands => ?_⟩
          · cases hok
            exact .true
          · cases hstands
            rfl
  | mapping once =>
      rw [ofEntries_eq_ok_iff once]
      refine ⟨.mapping, fun hstands => ?_⟩
      cases hstands with
      | mapping hlists => exact hlists
  | _ => exact ⟨nofun, nofun⟩

theorem refused_of_ofValue {raw : Value} (h : Json.IsNative raw) {f : OptionFault}
    (hread : ofValue raw = .error f) : ∃ v, ReadsFrom raw v ∧ Refused v f := by
  simp only [readsFrom_iff, exists_eq_left']
  have hnative : Json.IsNative (argument raw) := (readsFrom_iff.mpr rfl).isNative h
  unfold ofValue at hread
  generalize argument raw = v at hnative hread ⊢
  split at hread
  · cases hread
  · cases hread
  · cases hnative with
    | mapping once => exact refused_of_ofEntries once hread
  · next hnull htrue hmapping =>
      cases hread
      exact .notObject hnull htrue hmapping

/-- The truth values before an item that is none and whatever is behind it are not read. -/
theorem ofValue_behind {raw : Value} (h : ∀ b, raw ≠ .bool b) (bs : List Bool)
    (more : List Value) :
    ofValue (.list (bs.map .bool ++ raw :: more)) = ofValue (.list [raw]) := by
  have hmany : argument (.list (bs.map .bool ++ raw :: more)) = raw :=
    argument_of_readsFrom (.behind bs h)
  have hone : argument (.list [raw]) = raw := argument_of_readsFrom (.behind [] h)
  rw [ofValue, hmany, ofValue, hone]

theorem lists_toValue (o : RuleOptions) :
    Lists [(.text "dev", .bool o.dev), (.text "optional", .bool o.optional),
      (.text "ignore", .ofTexts o.ignore)] o := by
  refine ⟨by simp, ?_, ?_, ?_⟩ <;> simp [Value.textKeys]

theorem isObject_toValue (o : RuleOptions) :
    Value.IsObject [(.text "dev", .bool o.dev), (.text "optional", .bool o.optional),
      (.text "ignore", .ofTexts o.ignore)] :=
  Value.isObject_iff.mpr ⟨by simp, by simp [Value.textKeys]⟩

/-- Options that were written are read as they were, by themselves or behind a truth value. -/
theorem ofValue_toValue (o : RuleOptions) :
    ofValue o.toValue = .ok o ∧ ofValue (.list [.bool true, o.toValue]) = .ok o := by
  have hentries := (ofEntries_eq_ok_iff (isObject_toValue o)).mpr (lists_toValue o)
  exact ⟨hentries, hentries⟩

/-- What is accepted for options is exactly what the schema has, with the options that were written;
anything else is refused as a faulty value.  In a list nothing counts but the first item that is no
truth value, and options that are written can be read again. -/
theorem ofValue_schema {raw : Value} (h : Json.IsNative raw) :
    (∀ o, ofValue raw = .ok o ↔ ∃ v, ReadsFrom raw v ∧ StandsFor v o) ∧
      ((¬∃ o v, ReadsFrom raw v ∧ StandsFor v o) →
        ∃ f, ofValue raw = .error f ∧ (∃ v, ReadsFrom raw v ∧ Refused v f) ∧
          (Fault.options f).kindName = "ValueError") ∧
      ((∀ b, raw ≠ .bool b) → ∀ (bs : List Bool) (more : List Value),
        ofValue (.list (bs.map .bool ++ raw :: more)) = ofValue (.list [raw])) ∧
      ∀ o : RuleOptions,
        ofValue o.toValue = .ok o ∧ ofValue (.list [.bool true, o.toValue]) = .ok o := by
  refine ⟨fun o => ofValue_eq_ok_iff h, fun hnone => ?_, ofValue_behind, ofValue_toValue⟩
  cases hread : ofValue raw with
  | ok o => exact absurd ⟨o, (ofValue_eq_ok_iff h).mp hread⟩ hnone
  | error f => exact ⟨f, rfl, refused_of_ofValue h hread, rfl⟩

/-- In `[true, {"ignore": ["#"]}, 5]` the mapping is what counts. -/
theorem ofValue_schema_list :
    let raw := Value.list [.bool true, .mapping [(.text "ignore", .list [.text "#"])], .int 5]
    Json.IsNative raw ∧ ofValue raw = .ok ⟨false, false, ["#"]⟩ := by
  have hignore : Json.IsNative (.mapping [(.text "ignore", .list [.text "#"])]) :=
    .mapping (.cons List.not_mem_nil .nil)
      (List.forall_mem_singleton.mpr (.list (List.forall_mem_singleton.mpr (.text "#"))))
  have hnative : Json.IsNative
      (.list [.bool true, .mapping [(.text "ignore", .list [.text "#"])], .int 5]) := by
    refine .list ?_
    simp only [List.forall_mem_cons]
    exact ⟨.bool true, hignore, .int 5, List.forall_mem_nil _⟩
  refine ⟨hnative, ((ofValue_schema hnative).1 _).mpr ⟨_, .behind [true] nofun, .mapping ?_⟩⟩
  refine ⟨by simp [Value.ofTexts], fun _ => rfl, fun _ => rfl, fun hno => ?_⟩
  simp [Value.textKeys] at hno

-- a number is no truth value, and only one list is unwrapped
example : ofValue (.mapping [(.text "dev", .int 1)]) = .error (.notBoolean "dev") ∧
    ofValue (.list [.list [.null]]) = .error (.notObject "list") := by
  decide +kernel

end RuleOptions

end ImportAudit
