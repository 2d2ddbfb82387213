/-
# ImportAudit.Proofs.Settings.Parts — how a section is read member by member.

A member that is read changes a setting, gives the section its members anew, lists its settings, or
does nothing (`Takes`), and reading goes on behind it (`exists_of_readMembers_cons`).  What every
such step keeps is kept by reading a section (`readMembers_keeps`).  Where no member touches the
guise of a section, its settings are changed one after the other (`eq_setAll_of_readMembers`), and
each has the value that it was given last (`get_setAll`).  Where all members are settings, nothing
keeps the section from being read (`readMembers_settings`).
-/
import ImportAudit.Proofs.Json.Members
import ImportAudit.Proofs.Settings.Sections
import ImportAudit.Settings.Reading

namespace ImportAudit

/-! ## Looking up what was given last -/

namespace Value

theorem lookup_append (key : String) (before after : List (Value × Value)) :
    lookup key (before ++ after) = (lookup key before).or (lookup key after) := by
  induction before with
  | nil => rfl
  | cons e before ih =>
      obtain ⟨k, v⟩ := e
      cases k with
      | text name =>
          rw [List.cons_append, lookup, lookup]
          split
          · rfl
          · exact ih
      | _ => exact ih

/-- The value that a name was given last. -/
def last? (key : String) (members : List (Value × Value)) : Option Value :=
  lookup key members.reverse

theorem last?_cons (key : String) (k v : Value) (members : List (Value × Value)) :
    last? key ((k, v) :: members) = (last? key members).or (lookup key [(k, v)]) := by
  unfold last?
  rw [List.reverse_cons, lookup_append]

/-- The members of a section of a file, none if it is no mapping. -/
def membersOf (file : Value) (name : String) : List (Value × Value) :=
  match file.member? name with
  | some (.mapping members) => members
  | _ => []

/-- Of what counts as false no section has members. -/
theorem membersOf_of_not_truthy {file : Value} (h : file.truthy = false) (name : String) :
    file.membersOf name = [] := by
  cases file with
  | mapping entries =>
      cases entries with
      | nil => rfl
      | cons e entries => cases h
  | _ => rfl

end Value

namespace Settings

variable {α β : Type}

/-! ## Readings one after the other -/

namespace Reading

theorem andThen_eq_ok_iff {r : Reading α} {next : α → Reading β} {b : β} :
    (r.andThen next).2 = .ok b ↔ ∃ a, r.2 = .ok a ∧ (next a).2 = .ok b := by
  obtain ⟨remarks, result⟩ := r
  cases result <;> simp [andThen]

end Reading

/-! ## The names of a section -/

/-- The names of the settings of a section. -/
def Topic.fields : Topic → List String
  | .rule => (RuleSettings.members {}).map Prod.fst
  | .output => (OutputSettings.members {}).map Prod.fst
  | .logging => (LoggingSettings.members {}).map Prod.fst
  | .discovery => (DiscoverySettings.members {}).map Prod.fst

/-- The names that a section has of its own: those of its settings, and of what it can do. -/
def Topic.own : Topic → List String
  | .rule => "to_options" :: Topic.rule.fields
  | topic => topic.fields

namespace Part

/-- The laws of a section with names of its own: what has one of them can be changed, and nothing
else can; changing it leaves the guise of the section alone; and the guise is the one that was given
last. -/
structure Lawful (p : Part α) (topic : Topic) : Prop where
  name : p.name = topic.name
  unset : ∀ {key}, key ∉ topic.own → ∀ v s, p.set? key v s = none
  settable : ∀ {key}, key ∈ topic.own → ∀ v {s}, (p.guise s).members = none →
    ∃ s', p.set? key v s = some s'
  guise_set : ∀ {key v s s'}, p.set? key v s = some s' → p.guise s' = p.guise s
  guise_inGuise : ∀ g s, p.guise (p.inGuise g s) = g
  guise_default : p.guise p.default = {}

/-- A section that was not given its members lacks none. -/
theorem lacks_of_members {g : Guise} (h : g.members = none) (name : String) :
    g.lacks name = false := by
  rw [Guise.lacks, h]

theorem lawful_rulePart : rulePart.Lawful .rule where
  name := rfl
  unset {key} h v s := by
    simp only [Topic.own, Topic.fields, RuleSettings.members, List.map, List.mem_cons,
      List.not_mem_nil, or_false, not_or] at h
    obtain ⟨hreading, hdev, hoptional, hignore⟩ := h
    show setRule key v s = none
    unfold setRule
    split <;> first | contradiction | rfl
  settable {key} h v s hs := by
    simp only [Topic.own, Topic.fields, RuleSettings.members, List.map, List.mem_cons,
      List.not_mem_nil, or_false] at h
    rcases h with rfl | rfl | rfl | rfl
    · exact ⟨_, rfl⟩
    · exact ⟨_, rfl⟩
    · exact ⟨_, rfl⟩
    · exact ⟨_, if_neg (ne_true_of_eq_false (lacks_of_members hs "ignore"))⟩
  guise_set {key v s s'} h := by
    have h : setRule key v s = some s' := h
    unfold setRule at h
    repeat' split at h
    all_goals cases h
    all_goals rfl
  guise_inGuise _ _ := rfl
  guise_default := rfl

theorem lawful_outputPart : outputPart.Lawful .output where
  name := rfl
  unset {key} h v s := by
    simp only [Topic.own, Topic.fields, OutputSettings.members, List.map, List.mem_cons,
      List.not_mem_nil, or_false, not_or] at h
    obtain ⟨hformat, hfile, hquiet, hverbose, hfail⟩ := h
    show setOutput key v s = none
    unfold setOutput
    split <;> first | contradiction | rfl
  settable {key} h v s hs := by
    simp only [Topic.own, Topic.fields, OutputSettings.members, List.map, List.mem_cons,
      List.not_mem_nil, or_false] at h
    rcases h with rfl | rfl | rfl | rfl | rfl <;> exact ⟨_, rfl⟩
  guise_set {key v s s'} h := by
    have h : setOutput key v s = some s' := h
    unfold setOutput at h
    split at h <;> cases h <;> rfl
  guise_inGuise _ _ := rfl
  guise_default := rfl

theorem lawful_loggingPart : loggingPart.Lawful .logging where
  name := rfl
  unset {key} h v s := by
    simp only [Topic.own, Topic.fields, LoggingSettings.members, List.map, List.mem_cons,
      List.not_mem_nil, or_false, not_or] at h
    obtain ⟨hlevel, hjson⟩ := h
    show setLogging key v s = none
    unfold setLogging
    split <;> first | contradiction | rfl
  settable {key} h v s hs := by
    simp only [Topic.own, Topic.fields, LoggingSettings.members, List.map, List.mem_cons,
      List.not_mem_nil, or_false] at h
    rcases h with rfl | rfl <;> exact ⟨_, rfl⟩
  guise_set {key v s s'} h := by
    have h : setLogging key v s = some s' := h
    unfold setLogging at h
    split at h <;> cases h <;> rfl
  guise_inGuise _ _ := rfl
  guise_default := rfl

theorem lawful_discoveryPart : discoveryPart.Lawful .discovery where
  name := rfl
  unset {key} h v s := by
    simp only [Topic.own, Topic.fields, DiscoverySettings.members, List.map, List.mem_cons,
      List.not_mem_nil, or_false, not_or] at h
    obtain ⟨hextensions, hexcluded⟩ := h
    show setDiscovery key v s = none
    unfold setDiscovery
    split <;> first | contradiction | rfl
  settable {key} h v s hs := by
    simp only [Topic.own, Topic.fields, DiscoverySettings.members, List.map, List.mem_cons,
      List.not_mem_nil, or_false] at h
    rcases h with rfl | rfl
    · exact ⟨_, if_neg (ne_true_of_eq_false (lacks_of_members hs "extensions"))⟩
    · exact ⟨_, if_neg (ne_true_of_eq_false (lacks_of_members hs "exclude_dirs"))⟩
  guise_set {key v s s'} h := by
    have h : setDiscovery key v s = some s' := h
    unfold setDiscovery at h
    repeat' split at h
    all_goals cases h
    all_goals rfl
  guise_inGuise _ _ := rfl
  guise_default := rfl

/-! ## One member -/

/-- What becomes of a section when a member of it is read, if something does. -/
inductive Takes (p : Part α) (key : String) (v : Value) (s : α) : α → Prop
  | setting {s' : α} (h : p.set? key v s = some s') : Takes p key v s s'
  | anew {members : List (Value × Value)} (none : p.set? key v s = none)
      (key_eq : key = membersMember) (v_eq : v = .mapping members) :
      Takes p key v s (p.ofMembers members)
  | listing (none : p.set? key v s = none) (key_eq : key = listingMember) :
      Takes p key v s (p.inGuise { p.guise s with listing := some v } s)
  | nothing (none : p.set? key v s = none) (key_ne : key ≠ membersMember)
      (key_ne' : key ≠ listingMember) : Takes p key v s s

variable {p : Part α} {topic : Topic} {key : String} {v : Value} {s s' s'' : α}
  {members before after : List (Value × Value)}

theorem takes_of_setMember (none : p.set? key v s = none)
    (h : p.setMember key v s = some (.ok s')) : p.Takes key v s s' := by
  unfold setMember at h
  by_cases hclass : key = "__class__"
  · rw [if_pos hclass] at h
    cases h
  rw [if_neg hclass] at h
  by_cases hmembers : key = membersMember
  · rw [if_pos hmembers] at h
    split at h
    · cases h
      exact .anew none hmembers rfl
    · cases h
  rw [if_neg hmembers] at h
  by_cases hfixed : key = "__weakref__"
  · rw [if_pos hfixed] at h
    cases h
  rw [if_neg hfixed] at h
  by_cases hlisting : key = listingMember
  · rw [if_pos hlisting] at h
    cases h
    exact .listing none hlisting
  rw [if_neg hlisting] at h
  split at h
  · cases h
    exact .nothing none hmembers hlisting
  · cases h

theorem ne_of_setMember_eq_none (h : p.setMember key v s = none) :
    key ≠ membersMember ∧ key ≠ listingMember := by
  constructor
  · rintro rfl
    unfold setMember at h
    rw [if_neg (by decide), if_pos rfl] at h
    split at h <;> cases h
  · rintro rfl
    unfold setMember at h
    rw [if_neg (by decide), if_neg (by decide), if_neg (by decide), if_pos rfl] at h
    cases h

/-! ## All members -/

/-- A section that was read has taken its first member, and then the others. -/
theorem exists_of_readMembers_cons {k : Value}
    (h : (p.readMembers s ((k, v) :: members)).2 = .ok s'') :
    ∃ key s', k = .text key ∧ p.Takes key v s s' ∧ (p.readMembers s' members).2 = .ok s'' := by
  cases k with
  | text key =>
      rw [readMembers] at h
      cases hset : p.set? key v s with
      | some s' =>
          rw [hset] at h
          exact ⟨key, s', rfl, .setting hset, h⟩
      | none =>
          rw [hset] at h
          cases hmember : p.setMember key v s with
          | none =>
              rw [hmember] at h
              obtain ⟨hmembers, hlisting⟩ := ne_of_setMember_eq_none hmember
              exact ⟨key, s, rfl, .nothing hset hmembers hlisting, h⟩
          | some r =>
              rw [hmember] at h
              cases r with
              | error f => cases h
              | ok s' => exact ⟨key, s', rfl, takes_of_setMember hset hmember, h⟩
  | _ => cases h

/-- What every member keeps that may be read is kept by reading a section. -/
theorem readMembers_keeps {Q : α → Prop} {P : String → Value → Prop}
    (hstep : ∀ {key v s s'}, P key v → Q s → p.Takes key v s s' → Q s')
    (hmembers : ∀ key v, (.text key, v) ∈ members → P key v) (hs : Q s)
    (h : (p.readMembers s members).2 = .ok s') : Q s' := by
  induction members generalizing s with
  | nil =>
      cases h
      exact hs
  | cons e members ih =>
      obtain ⟨k, v⟩ := e
      obtain ⟨key, next, rfl, htakes, hrest⟩ := exists_of_readMembers_cons h
      have hnext : Q next := hstep (hmembers key v List.mem_cons_self) hs htakes
      exact ih (fun key v hmem => hmembers key v (List.mem_cons_of_mem _ hmem)) hnext hrest

/-- Members behind others are read behind them. -/
theorem readMembers_append (p : Part α) (s : α) (before after : List (Value × Value)) :
    p.readMembers s (before ++ after) =
      (p.readMembers s before).andThen fun s => p.readMembers s after := by
  induction before generalizing s with
  | nil => rfl
  | cons e before ih =>
      obtain ⟨k, v⟩ := e
      cases k with
      | text key =>
          rw [List.cons_append, readMembers, readMembers]
          cases p.set? key v s with
          | some s' => exact ih s'
          | none =>
              cases p.setMember key v s with
              | some r =>
                  cases r with
                  | ok s' => exact ih s'
                  | error f => rfl
              | none =>
                  dsimp only
                  rw [ih]
                  cases hbefore : p.readMembers s before with
                  | mk remarks result => cases result <;> rfl
      | _ => rfl

/-! ## Settings only -/

theorem setAll_cons_text (p : Part α) (key : String) (v : Value) (s : α)
    (members : List (Value × Value)) :
    p.setAll s ((.text key, v) :: members) = p.setAll ((p.set? key v s).getD s) members := rfl

/-- What changing a setting keeps is kept by changing settings one after the other. -/
theorem setAll_keeps {Q : α → Prop} {P : String → Value → Prop}
    (hstep : ∀ {key v s}, P key v → Q s → Q ((p.set? key v s).getD s))
    (hmembers : ∀ key v, (.text key, v) ∈ members → P key v) (hs : Q s) :
    Q (p.setAll s members) := by
  induction members generalizing s with
  | nil => exact hs
  | cons e members ih =>
      obtain ⟨k, v⟩ := e
      have hrest : ∀ key v, (.text key, v) ∈ members → P key v := fun key v hmem =>
        hmembers key v (List.mem_cons_of_mem _ hmem)
      cases k with
      | text key => exact ih hrest (hstep (hmembers key v List.mem_cons_self) hs)
      | _ => exact ih hrest hs

theorem guise_getD (hp : p.Lawful topic) (key : String) (v : Value) (s : α) :
    p.guise ((p.set? key v s).getD s) = p.guise s := by
  cases hset : p.set? key v s with
  | none => rfl
  | some s' => exact hp.guise_set hset

theorem guise_setAll (hp : p.Lawful topic) (s : α) (members : List (Value × Value)) :
    p.guise (p.setAll s members) = p.guise s := by
  refine setAll_keeps (Q := fun t => p.guise t = p.guise s) (P := fun _ _ => True) ?_
    (fun _ _ _ => trivial) rfl
  intro key v t _ ht
  rw [guise_getD hp, ht]

/-- A section that was given its members has those, and what they say that it lists. -/
theorem guise_ofMembers (hp : p.Lawful topic) (members : List (Value × Value)) :
    p.guise (p.ofMembers members) =
      ⟨some (Value.textKeys members), Value.lookup listingMember members⟩ := by
  unfold ofMembers
  rw [guise_setAll hp, hp.guise_inGuise]

/-- Where no member touches the guise, the settings are changed one after the other. -/
theorem eq_setAll_of_readMembers (hmembers : membersMember ∉ Value.textKeys members)
    (hlisting : listingMember ∉ Value.textKeys members)
    (h : (p.readMembers s members).2 = .ok s') : s' = p.setAll s members := by
  induction members generalizing s with
  | nil =>
      cases h
      rfl
  | cons e members ih =>
      obtain ⟨k, v⟩ := e
      obtain ⟨key, next, rfl, htakes, hrest⟩ := exists_of_readMembers_cons h
      rw [Value.textKeys_text_cons, List.mem_cons, not_or] at hmembers hlisting
      rw [ih hmembers.2 hlisting.2 hrest, setAll_cons_text]
      cases htakes with
      | setting hset => rw [hset]; rfl
      | anew none hkey hv => exact absurd hkey.symm hmembers.1
      | listing none hkey => exact absurd hkey.symm hlisting.1
      | nothing none => rw [none]; rfl

/-- Settings that a section has are read without a remark. -/
theorem readMembers_settings (hp : p.Lawful topic) (hs : (p.guise s).members = none)
    (h : ∀ e ∈ members, ∃ key ∈ topic.own, e.1 = .text key) :
    p.readMembers s members = ([], .ok (p.setAll s members)) := by
  induction members generalizing s with
  | nil => rfl
  | cons e members ih =>
      obtain ⟨k, v⟩ := e
      rw [List.forall_mem_cons] at h
      obtain ⟨⟨key, hkey, rfl⟩, hrest⟩ := h
      obtain ⟨s', hset⟩ := hp.settable hkey v hs
      have hs' : (p.guise s').members = none := by rw [hp.guise_set hset, hs]
      rw [readMembers, setAll_cons_text, hset]
      exact ih hs' hrest

/-- A setting has the value that it was given last, or else the one that it had. -/
theorem get_setAll {Q : α → Prop} (get : α → Value) {name : String}
    (hset : ∀ key v {s}, Q s →
      Q ((p.set? key v s).getD s) ∧
        get ((p.set? key v s).getD s) = if key = name then v else get s)
    (hs : Q s) (members : List (Value × Value)) :
    get (p.setAll s members) = (Value.last? name members).getD (get s) := by
  induction members generalizing s with
  | nil => rfl
  | cons e members ih =>
      obtain ⟨k, v⟩ := e
      cases k with
      | text key =>
          obtain ⟨hnext, hget⟩ := hset key v hs
          rw [setAll_cons_text, ih hnext, hget, Value.last?_cons, Value.lookup]
          cases Value.last? name members with
          | some w => rfl
          | none => split <;> rfl
      | _ =>
          -- a key that is no text names nothing
          rw [Value.last?_cons]
          show get (p.setAll s members) = ((Value.last? name members).or none).getD (get s)
          rw [Option.or_none]
          exact ih hs

/-! ## The file -/

/-- What is found for a section is the member of its name. -/
theorem member?_of_find {file : Value} {given : Option Value} (h : p.find file = .ok given) :
    file.member? p.name = given := by
  cases file with
  | mapping entries =>
      cases h
      rfl
  | text t =>
      simp only [find] at h
      split at h <;> cases h
      rfl
  | list items =>
      simp only [find] at h
      split at h <;> cases h
      rfl
  | _ => cases h

theorem readFrom_mapping (p : Part α) (entries : List (Value × Value)) :
    p.readFrom (.mapping entries) =
      match Value.lookup p.name entries with
      | none => ([], .ok p.default)
      | some v => p.read v := by
  unfold readFrom find
  dsimp only
  cases Value.lookup p.name entries <;> rfl

/-- A section is read of its members, as far as the file has a mapping of them. -/
theorem readMembers_of_readFrom {file : Value} (h : (p.readFrom file).2 = .ok s) :
    (p.readMembers p.default (file.membersOf p.name)).2 = .ok s := by
  unfold readFrom at h
  unfold Value.membersOf
  cases hfind : p.find file with
  | error f =>
      rw [hfind] at h
      cases h
  | ok given =>
      rw [hfind] at h
      rw [member?_of_find hfind]
      cases given with
      | none => exact h
      | some v => cases v <;> exact h

end Part

theorem ofFile_mapping (entries : List (Value × Value)) :
    ofFile (.mapping entries) =
      (rulePart.readFrom (.mapping entries)).andThen fun rule =>
      (outputPart.readFrom (.mapping entries)).andThen fun output =>
      (loggingPart.readFrom (.mapping entries)).andThen fun logging =>
      (discoveryPart.readFrom (.mapping entries)).andThen fun discovery =>
      ([], .ok { rule, output, logging, discovery }) := by
  cases entries <;> rfl

/-- The settings of a file are read section by section, each of its own members. -/
theorem readMembers_of_ofFile {file : Value} {given : Settings} (h : (ofFile file).2 = .ok given) :
    (rulePart.readMembers {} (file.membersOf "rule")).2 = .ok given.rule ∧
      (outputPart.readMembers {} (file.membersOf "output")).2 = .ok given.output ∧
      (loggingPart.readMembers {} (file.membersOf "logging")).2 = .ok given.logging ∧
      (discoveryPart.readMembers {} (file.membersOf "discovery")).2 = .ok given.discovery := by
  unfold ofFile at h
  cases htruthy : file.truthy with
  | false =>
      rw [htruthy] at h
      cases h
      simp only [Value.membersOf_of_not_truthy htruthy]
      exact ⟨rfl, rfl, rfl, rfl⟩
  | true =>
      rw [htruthy] at h
      simp only [Bool.not_true, Bool.false_eq_true, if_false, Reading.andThen_eq_ok_iff] at h
      obtain ⟨rule, hrule, output, houtput, logging, hlogging, discovery, hdiscovery, h⟩ := h
      cases h
      exact ⟨Part.readMembers_of_readFrom hrule, Part.readMembers_of_readFrom houtput,
        Part.readMembers_of_readFrom hlogging, Part.readMembers_of_readFrom hdiscovery⟩

end Settings

end ImportAudit
