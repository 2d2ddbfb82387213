/-
# ImportAudit.Proofs.Session.Unknown — members that a section does not know.

A member of a section whose key names nothing that the section has is remarked on, and nothing else
comes of it: the section that is read with it is the one that is read without it (`AddsTo`, which is
closed under going on from a reading).  So settings that are built of a file with such a member are
those that are built without it, and one warning more is printed, if it can be
(`buildSettings_unknown`).  A section has more names than those of its settings, though, and a
member that has one of these is not remarked on.
-/
import ImportAudit.Proofs.Console.Literal
import ImportAudit.Proofs.Session.Precedence
import ImportAudit.Proofs.Settings.Parts

namespace ImportAudit

namespace Settings

variable {α β : Type} {more : List Remark}

/-! ## Readings with remarks more -/

/-- If one reading comes to something, another one comes to the same with remarks more. -/
def AddsTo (more : List Remark) (r r' : Reading α) : Prop :=
  ∀ a, r.2 = .ok a →
    ∃ earlier later, r.1 = earlier ++ later ∧ r' = (earlier ++ more ++ later, .ok a)

theorem addsTo_refl (r : Reading α) : AddsTo [] r r := by
  intro a ha
  refine ⟨r.1, [], (List.append_nil _).symm, ?_⟩
  rw [List.append_nil, List.append_nil, ← ha]

/-- A remark comes first. -/
theorem addsTo_cons (remark : Remark) (r : Reading α) : AddsTo [remark] r (remark :: r.1, r.2) := by
  intro a ha
  refine ⟨[], r.1, rfl, ?_⟩
  rw [ha]
  rfl

theorem AddsTo.andThen_left {r r' : Reading α} (h : AddsTo more r r') (next : α → Reading β) :
    AddsTo more (r.andThen next) (r'.andThen next) := by
  obtain ⟨remarks, result⟩ := r
  cases result with
  | error f => exact fun b hb => nomatch hb
  | ok a =>
      obtain ⟨earlier, later, rfl, rfl⟩ := h a rfl
      intro b hb
      refine ⟨earlier, later ++ (next a).1, List.append_assoc _ _ _, ?_⟩
      have hb : (next a).2 = .ok b := hb
      rw [Reading.andThen, hb, List.append_assoc _ later]

theorem addsTo_andThen_right {r : Reading α} {next next' : α → Reading β}
    (h : ∀ a, r.2 = .ok a → AddsTo more (next a) (next' a)) :
    AddsTo more (r.andThen next) (r.andThen next') := by
  obtain ⟨remarks, result⟩ := r
  cases result with
  | error f => exact fun b hb => nomatch hb
  | ok a =>
      intro b hb
      obtain ⟨earlier, later, hearlier, hnext⟩ := h a rfl b hb
      refine ⟨remarks ++ earlier, later, ?_, ?_⟩
      · rw [Reading.andThen, hearlier, List.append_assoc]
      · rw [Reading.andThen, hnext, List.append_assoc, List.append_assoc, List.append_assoc]

/-! ## A member more -/

/-- The key names nothing that a section has behind some members: none of its own names, none that
every section has, and none that it was given with all its members. -/
structure IsUnknown (topic : Topic) (key : String) (before : List (Value × Value)) : Prop where
  own : key ∉ topic.own
  common : key ∉ ["__class__", membersMember, "__weakref__", listingMember]
  inert : key ∉ inertMembers
  given : ∀ members, (.text membersMember, .mapping members) ∈ before →
    key ∉ Value.textKeys members

namespace Part

variable {p : Part α} {topic : Topic} {key : String} {v : Value} {s s' : α}
  {before : List (Value × Value)}

/-- A section has a name that it was given only with all its members. -/
theorem has_of_takes (hp : p.Lawful topic) {name : String} (hs : (p.guise s).has key = false)
    (hgiven : ∀ members, name = membersMember → v = .mapping members →
      key ∉ Value.textKeys members) (h : p.Takes name v s s') : (p.guise s').has key = false := by
  cases h with
  | setting hset => rw [hp.guise_set hset, hs]
  | anew none hname hv =>
      rw [guise_ofMembers hp, Guise.has]
      simpa using hgiven _ hname hv
  | listing => rwa [hp.guise_inGuise]
  | nothing => exact hs

theorem has_of_readMembers (hp : p.Lawful topic) (h : IsUnknown topic key before)
    (hread : (p.readMembers p.default before).2 = .ok s) : (p.guise s).has key = false := by
  have hdefault : (p.guise p.default).has key = false := by
    rw [hp.guise_default]
    rfl
  refine readMembers_keeps (Q := fun s => (p.guise s).has key = false)
    (P := fun name v => ∀ members, name = membersMember → v = .mapping members →
      key ∉ Value.textKeys members) ?_ ?_ hdefault hread
  · intro name v s s' hgiven hs htakes
    exact has_of_takes hp hs hgiven htakes
  · rintro name v hmem members rfl rfl
    exact h.given members hmem

theorem setMember_unknown (h : IsUnknown topic key before) (hs : (p.guise s).has key = false)
    (v : Value) : p.setMember key v s = none := by
  obtain ⟨-, hcommon, hinert, -⟩ := h
  simp only [List.mem_cons, List.not_mem_nil, or_false, not_or] at hcommon
  obtain ⟨hclass, hmembers, hweak, hlisting⟩ := hcommon
  unfold setMember
  rw [if_neg hclass, if_neg hmembers, if_neg hweak, if_neg hlisting, if_neg]
  simp [hinert, hs]

/-- A member that every section has and does nothing with. -/
theorem setMember_inert (h : key ∈ inertMembers) (v : Value) (s : α) :
    p.setMember key v s = some (.ok s) := by
  have hclass : key ≠ "__class__" := ne_of_mem_of_not_mem h (by decide)
  have hmembers : key ≠ membersMember := ne_of_mem_of_not_mem h (by decide)
  have hweak : key ≠ "__weakref__" := ne_of_mem_of_not_mem h (by decide)
  have hlisting : key ≠ listingMember := ne_of_mem_of_not_mem h (by decide)
  unfold setMember
  rw [if_neg hclass, if_neg hmembers, if_neg hweak, if_neg hlisting, if_pos]
  simp [h]

theorem notMem_own_of_inert (h : key ∈ inertMembers) (topic : Topic) : key ∉ topic.own := by
  have hnone : ∀ key ∈ inertMembers, key ∉ topic.own := by
    cases topic <;> decide
  exact hnone key h

/-- A member more between others is an unknown one, with a remark more, or an inert one, with
none. -/
theorem readMembers_addsTo (hp : p.Lawful topic)
    (h : IsUnknown topic key before ∧ more = [.unknown topic.name key] ∨
      key ∈ inertMembers ∧ more = []) (v : Value) (after : List (Value × Value)) :
    AddsTo more (p.readMembers p.default (before ++ after))
      (p.readMembers p.default (before ++ (.text key, v) :: after)) := by
  rw [readMembers_append, readMembers_append]
  refine addsTo_andThen_right fun s hread => ?_
  rcases h with ⟨hunknown, rfl⟩ | ⟨hinert, rfl⟩
  · have hs := has_of_readMembers hp hunknown hread
    rw [readMembers, hp.unset hunknown.own, setMember_unknown hunknown hs, ← hp.name]
    exact addsTo_cons _ _
  · rw [readMembers, hp.unset (notMem_own_of_inert hinert topic), setMember_inert hinert]
    exact addsTo_refl _

end Part

/-! ## A file with a member more -/

/-- The entries of a file are others with a member more in a section, behind some members and in
front of others; a section that was not there has only this one. -/
structure InsertsMember (entries entries' : List (Value × Value)) (topic : Topic) (key : String)
    (v : Value) (before after : List (Value × Value)) : Prop where
  others : ∀ other, other ≠ topic →
    Value.lookup other.name entries' = Value.lookup other.name entries
  given : Value.lookup topic.name entries = some (.mapping (before ++ after)) ∨
    Value.lookup topic.name entries = none ∧ before ++ after = []
  inserted : Value.lookup topic.name entries' =
    some (.mapping (before ++ (.text key, v) :: after))

section

variable {topic : Topic} {key : String} {v : Value}
  {before after entries entries' : List (Value × Value)}

/-- Other sections are read as they were. -/
theorem InsertsMember.readFrom_other (h : InsertsMember entries entries' topic key v before after)
    {p : Part α} {other : Topic} (hp : p.Lawful other) (hne : other ≠ topic) :
    p.readFrom (.mapping entries') = p.readFrom (.mapping entries) := by
  rw [Part.readFrom_mapping, Part.readFrom_mapping, hp.name, h.others other hne]

/-- The section itself is read with what is remarked on the member. -/
theorem InsertsMember.readFrom_addsTo (h : InsertsMember entries entries' topic key v before after)
    {p : Part α} (hp : p.Lawful topic)
    (hkey : IsUnknown topic key before ∧ more = [.unknown topic.name key] ∨
      key ∈ inertMembers ∧ more = []) :
    AddsTo more (p.readFrom (.mapping entries)) (p.readFrom (.mapping entries')) := by
  have hread := Part.readMembers_addsTo hp hkey v after
  rw [Part.readFrom_mapping, Part.readFrom_mapping, hp.name, h.inserted]
  rcases h.given with hgiven | ⟨hgiven, hnone⟩
  · rw [hgiven]
    exact hread
  · rw [hnone] at hread
    rw [hgiven]
    exact hread

/-- The whole file is read with what is remarked on the member. -/
theorem InsertsMember.ofFile_addsTo (h : InsertsMember entries entries' topic key v before after)
    (hkey : IsUnknown topic key before ∧ more = [.unknown topic.name key] ∨
      key ∈ inertMembers ∧ more = []) :
    AddsTo more (ofFile (.mapping entries)) (ofFile (.mapping entries')) := by
  rw [ofFile_mapping, ofFile_mapping]
  -- the sections before the one of the member are the same, and those behind it go on from it
  cases topic with
  | rule =>
      rw [h.readFrom_other Part.lawful_outputPart nofun,
        h.readFrom_other Part.lawful_loggingPart nofun,
        h.readFrom_other Part.lawful_discoveryPart nofun]
      exact (h.readFrom_addsTo Part.lawful_rulePart hkey).andThen_left _
  | output =>
      rw [h.readFrom_other Part.lawful_rulePart nofun,
        h.readFrom_other Part.lawful_loggingPart nofun,
        h.readFrom_other Part.lawful_discoveryPart nofun]
      refine addsTo_andThen_right fun _ _ => ?_
      exact (h.readFrom_addsTo Part.lawful_outputPart hkey).andThen_left _
  | logging =>
      rw [h.readFrom_other Part.lawful_rulePart nofun,
        h.readFrom_other Part.lawful_outputPart nofun,
        h.readFrom_other Part.lawful_discoveryPart nofun]
      refine addsTo_andThen_right fun _ _ => addsTo_andThen_right fun _ _ => ?_
      exact (h.readFrom_addsTo Part.lawful_loggingPart hkey).andThen_left _
  | discovery =>
      rw [h.readFrom_other Part.lawful_rulePart nofun,
        h.readFrom_other Part.lawful_outputPart nofun,
        h.readFrom_other Part.lawful_loggingPart nofun]
      refine addsTo_andThen_right fun _ _ => addsTo_andThen_right fun _ _ =>
        addsTo_andThen_right fun _ _ => ?_
      exact (h.readFrom_addsTo Part.lawful_discoveryPart hkey).andThen_left _

end

end Settings

namespace Run

variable {s t : Session}

/-! ## Warnings one after the other -/

/-- Warnings are shown as a text, whatever was printed before. -/
def ShownAs (texts : List String) (shown : String) : Prop :=
  ∀ s : Session, (warnAll texts).run s = (.ok (), { s with errors := s.errors ++ shown })

theorem shownAs_nil : ShownAs [] "" := by
  intro s
  rw [String.append_empty]
  rfl

theorem shownAs_cons {text shown later : String} {texts : List String}
    (h : Console.paragraph warningWidth text = .ok shown) (hlater : ShownAs texts later) :
    ShownAs (text :: texts) (shown ++ later) := by
  intro s
  have hwarn : (warn text).run s = (.ok (), { s with errors := s.errors ++ shown }) := by
    unfold warn warnAt
    rw [h]
    rfl
  rw [warnAll, run_bind_of_ok hwarn, hlater, String.append_assoc]

theorem warnAll_append (texts more : List String) :
    warnAll (texts ++ more) = warnAll texts >>= fun _ => warnAll more := by
  induction texts with
  | nil => exact (pure_bind _ _).symm
  | cons text texts ih => rw [List.cons_append, warnAll, warnAll, ih, bind_assoc]

theorem ShownAs.append {texts more : List String} {shown later : String} (h : ShownAs texts shown)
    (hlater : ShownAs more later) : ShownAs (texts ++ more) (shown ++ later) := by
  intro s
  rw [warnAll_append, run_bind_of_ok (h s), hlater, String.append_assoc]

/-- What can be printed is shown as something. -/
theorem exists_paragraph {text : String} (h : Console.prints text = true) (width : Nat) :
    ∃ shown, Console.paragraph width text = .ok shown := by
  unfold Console.prints at h
  unfold Console.paragraph
  cases hshown : Console.render text with
  | error f => rw [hshown] at h; cases h
  | ok cs => exact ⟨_, rfl⟩

theorem exists_shownAs {texts : List String} (h : ∀ text ∈ texts, Console.prints text = true) :
    ∃ shown, ShownAs texts shown := by
  induction texts with
  | nil => exact ⟨"", shownAs_nil⟩
  | cons text texts ih =>
      rw [List.forall_mem_cons] at h
      obtain ⟨shown, hshown⟩ := exists_paragraph h.1 warningWidth
      obtain ⟨later, hlater⟩ := ih h.2
      exact ⟨shown ++ later, shownAs_cons hshown hlater⟩

theorem run_buildSettings {file : Value} {given : Settings} {remarks : List Settings.Remark}
    {shown : String} (hread : Settings.ofFile file = (remarks, .ok given))
    (h : ShownAs (remarks.map Settings.Remark.text) shown) (s : Session) :
    (buildSettings file).run s =
      (.ok (s.environment.apply given), { s with errors := s.errors ++ shown }) := by
  rw [buildSettings_eq, hread, run_bind_of_ok (h s)]
  rfl

/-- Settings that are built were read, and all that was remarked was printed. -/
theorem prints_of_buildSettings {file : Value} {built : Settings}
    (h : (buildSettings file).run s = (.ok built, t)) :
    ∀ remark ∈ (Settings.ofFile file).1, Console.prints remark.text = true := by
  rw [buildSettings_eq] at h
  obtain ⟨_, u, hwarn, -⟩ := run_bind_eq_ok_iff.mp h
  exact List.forall_mem_map.mp ((warnAll_returns_iff _ s).mp ⟨u, hwarn⟩)

/-- A section in which `dev` is true. -/
def devGiven : List (Value × Value) := [(.text "rule", .mapping [(.text "dev", .bool true)])]

/-- The section with an unknown member in front. -/
def devGivenOddly : List (Value × Value) :=
  [(.text "rule", .mapping [(.text "odd", .null), (.text "dev", .bool true)])]

theorem insertsMember_devGivenOddly :
    Settings.InsertsMember devGiven devGivenOddly .rule "odd" .null []
      [(.text "dev", .bool true)] where
  others other hne := by
    cases other with
    | rule => exact absurd rfl hne
    | _ => rfl
  given := .inl rfl
  inserted := rfl

/-- A file that gives a value to the name by which the options of the rule are read. -/
def readingGiven : List (Value × Value) :=
  [(.text "rule", .mapping [(.text "to_options", .int 1)])]

theorem insertsMember_readingGiven :
    Settings.InsertsMember [] readingGiven .rule "to_options" (.int 1) [] [] where
  others other hne := by
    cases other with
    | rule => exact absurd rfl hne
    | _ => rfl
  given := .inr ⟨rfl, rfl⟩
  inserted := rfl

end Run

end ImportAudit
