/-
# ImportAudit.Proofs.Settings.Accepted — what settings are that are not objected to.

Let a file be native, as all files are that are read of JSON.  Whatever members it gives, the level
and the extensions that are built of it are native (`hasNative_ofFile`).  If no objection is made to
them, then the level is a text that names one (`level_of_accepted`), and the extensions consist of
texts (`extensions_of_accepted`): the objections are made to what values are written like, and no
native value but a text is written like a level, or begins with a dot.
-/
import ImportAudit.Proofs.Json.Native
import ImportAudit.Proofs.Settings.Parts
import ImportAudit.Proofs.Settings.Usable
import ImportAudit.Settings.Environment

namespace ImportAudit

open Json (IsNative)

/-! ## Members of native values -/

namespace Value

/-- What a native file gives a section is native, as a mapping of its members. -/
theorem isNative_mapping_membersOf {file : Value} (h : IsNative file) (name : String) :
    IsNative (.mapping (file.membersOf name)) := by
  unfold membersOf
  split
  · next members hmember =>
      cases h with
      | mapping once hentries => exact hentries _ ((lookup_eq_some_iff once).mp hmember)
      | _ => cases hmember
  · exact .mapping .nil (List.forall_mem_nil _)

/-- The members that a native file gives a section have native values. -/
theorem isNative_membersOf {file : Value} (h : IsNative file) (name : String) :
    ∀ e ∈ file.membersOf name, IsNative e.2 := by
  cases isNative_mapping_membersOf h name with
  | mapping _ hmembers => exact hmembers

/-- The members that a native file gives a section are those of an object. -/
theorem isObject_membersOf {file : Value} (h : IsNative file) (name : String) :
    IsObject (file.membersOf name) := by
  cases isNative_mapping_membersOf h name with
  | mapping once _ => exact once

/-- A native value consists of native items. -/
theorem isNative_items {v : Value} (h : IsNative v) {items : List Value}
    (hitems : v.items = .ok items) : ∀ item ∈ items, IsNative item := by
  cases h with
  | list hvs =>
      cases hitems
      exact hvs
  | text s =>
      cases hitems
      intro item hitem
      obtain ⟨c, -, rfl⟩ := List.mem_map.mp hitem
      exact .text _
  | mapping once hentries =>
      cases hitems
      intro item hitem
      obtain ⟨e, he, rfl⟩ := List.mem_map.mp hitem
      obtain ⟨name, hname⟩ := once.exists_name e he
      rw [hname]
      exact .text name
  | _ => cases hitems

theorem exists_texts {items : List Value} (h : ∀ item ∈ items, ∃ text, item = .text text) :
    ∃ texts : List String, items = texts.map .text := by
  induction items with
  | nil => exact ⟨[], rfl⟩
  | cons item items ih =>
      rw [List.forall_mem_cons] at h
      obtain ⟨⟨text, rfl⟩, hrest⟩ := h
      obtain ⟨texts, rfl⟩ := ih hrest
      exact ⟨text :: texts, rfl⟩

end Value

namespace Settings

/-! ## Reading native members -/

/-- What setting a native value keeps, and changing the guise, is kept by reading native members. -/
theorem Part.readMembers_native {α : Type} {p : Part α} {Q : α → Prop} {s : α}
    {members : List (Value × Value)}
    (hset : ∀ {key v s s'}, IsNative v → Q s → p.set? key v s = some s' → Q s')
    (hguise : ∀ {guise s}, Q s → Q (p.inGuise guise s)) (hdefault : Q p.default)
    (hmembers : ∀ e ∈ members, IsNative e.2)
    (h : (p.readMembers p.default members).2 = .ok s) : Q s := by
  have hgetD : ∀ {key v s}, IsNative v → Q s → Q ((p.set? key v s).getD s) := by
    intro key v s hv hs
    cases hnext : p.set? key v s with
    | none => exact hs
    | some s' => exact hset hv hs hnext
  refine Part.readMembers_keeps (P := fun _ v => IsNative v) ?_ (fun key v hmem => hmembers _ hmem)
    hdefault h
  intro key v s s' hv hs htakes
  cases htakes with
  | setting hnext => exact hset hv hs hnext
  | @anew inner none hkey heq =>
      subst heq
      cases hv with
      | mapping once hinner =>
          exact Part.setAll_keeps (P := fun _ v => IsNative v) hgetD
            (fun key v hmem => hinner _ hmem) (hguise hdefault)
  | listing none hkey => exact hguise hs
  | nothing none hmembers hlisting => exact hs

/-- The level and the extensions are native values. -/
structure HasNative (s : Settings) : Prop where
  level : IsNative s.logging.level
  extensions : IsNative s.discovery.extensions

theorem isNative_ofTexts (texts : List String) : IsNative (.ofTexts texts) := by
  refine .list fun v hv => ?_
  obtain ⟨text, -, rfl⟩ := List.mem_map.mp hv
  exact .text text

/-- Whatever members a native file gives, the values that they are set to are native. -/
theorem hasNative_ofFile {file : Value} (h : IsNative file) {given : Settings}
    (hgiven : (ofFile file).2 = .ok given) : given.HasNative := by
  obtain ⟨-, -, hlogging, hdiscovery⟩ := readMembers_of_ofFile hgiven
  constructor
  · refine Part.readMembers_native (p := loggingPart) (Q := fun s => IsNative s.level) ?_
      (fun hs => hs) (.text _) (Value.isNative_membersOf h _) hlogging
    intro key v s s' hv hs hset
    have hset : setLogging key v s = some s' := hset
    unfold setLogging at hset
    split at hset <;> cases hset
    · exact hv
    · exact hs
  · refine Part.readMembers_native (p := discoveryPart) (Q := fun s => IsNative s.extensions) ?_
      (fun hs => hs) (isNative_ofTexts _) (Value.isNative_membersOf h _) hdiscovery
    intro key v s s' hv hs hset
    have hset : setDiscovery key v s = some s' := hset
    unfold setDiscovery at hset
    repeat' split at hset
    all_goals cases hset
    · exact hv
    · exact hs

/-- Variables of the environment are texts. -/
theorem HasNative.apply {s : Settings} (h : s.HasNative) (env : Environment) :
    (env.apply s).HasNative := by
  refine ⟨?_, h.extensions⟩
  dsimp only [Environment.apply]
  split
  · exact h.level
  · exact .text _

/-! ## Settings that are accepted -/

/-- The upper case of a mark is a character, and no level begins with it. -/
theorem upper_mark {c : Char} (h : c ∈ Json.marks) :
    ∃ d, Text.upperChar c = [d] ∧ ∀ level ∈ levels, level.toList.head? ≠ some d := by
  have hall : (Json.marks.all fun c => c.toNat < 128 &&
      levels.all fun level => level.toList.head? ≠ some c.toUpper) = true := by decide
  have hmark := List.all_eq_true.mp hall c h
  rw [Bool.and_eq_true, decide_eq_true_eq] at hmark
  refine ⟨c.toUpper, if_pos hmark.1, fun level hlevel => ?_⟩
  exact of_decide_eq_true (List.all_eq_true.mp hmark.2 level hlevel)

/-- A native value that is written like a level is the text of one. -/
theorem text_of_level {v : Value} (h : IsNative v) (hlevel : Text.upper v.plain ∈ levels) :
    ∃ text, v = .text text ∧ Text.upper text ∈ levels := by
  by_cases htext : ∃ text, v = .text text
  · obtain ⟨text, rfl⟩ := htext
    exact ⟨text, rfl, hlevel⟩
  · rcases Json.isMarked_plain h fun text heq => htext ⟨text, heq⟩ with rfl | ⟨c, hc, hhead⟩
    · exact absurd hlevel (by decide +kernel)
    · obtain ⟨d, hupper, hnone⟩ := upper_mark hc
      obtain ⟨rest, hrest⟩ := List.head?_eq_some_iff.mp hhead
      refine absurd ?_ (hnone _ hlevel)
      rw [Text.upper, String.toList_ofList, hrest, List.flatMap_cons, hupper]
      rfl

/-- A native value that is written with a dot in front is a text. -/
theorem text_of_dot {v : Value} (h : IsNative v) (hdot : v.plain.toList.head? = some '.') :
    ∃ text, v = .text text := by
  by_contra htext
  rcases Json.isMarked_plain h fun text heq => htext ⟨text, heq⟩ with rfl | ⟨c, hc, hhead⟩
  · exact absurd hdot (by decide +kernel)
  · rw [hdot] at hhead
    obtain rfl := Option.some.inj hhead
    exact absurd hc (by decide)

theorem level_of_accepted {s : LoggingSettings} (h : IsNative s.level)
    (haccepted : loggingObjections s = []) :
    ∃ text, s.level = .text text ∧ Text.upper text ∈ levels := by
  refine text_of_level h ?_
  unfold loggingObjections at haccepted
  split at haccepted
  · next hlevel => exact List.contains_iff_mem.mp hlevel
  · cases haccepted

theorem extensions_of_accepted {s : DiscoverySettings} (h : IsNative s.extensions)
    (haccepted : discoveryObjections s = .ok []) :
    s.guise.lacks "extensions" = false ∧ s.extensions.truthy = true ∧
      ∃ texts : List String, s.extensions.items = .ok (texts.map .text) := by
  unfold discoveryObjections at haccepted
  cases hmember : s.member "extensions" s.extensions with
  | error f =>
      rw [hmember] at haccepted
      cases haccepted
  | ok v =>
      obtain ⟨hlacks, rfl⟩ := member_eq_ok_iff.mp hmember
      rw [hmember] at haccepted
      dsimp only at haccepted
      cases hitems : s.extensions.items with
      | error f =>
          rw [hitems] at haccepted
          cases haccepted
      | ok items =>
          rw [hitems] at haccepted
          obtain ⟨hempty, hnone⟩ := List.append_eq_nil_iff.mp (Except.ok.inj haccepted)
          refine ⟨hlacks, ?_, ?_⟩
          · split at hempty
            · next htruthy => exact htruthy
            · cases hempty
          · -- nothing is objected to an extension that is written with a dot in front
            obtain ⟨texts, rfl⟩ := Value.exists_texts fun item hitem => by
              refine text_of_dot (Value.isNative_items h hitems item hitem) ?_
              have hobjection := List.filterMap_eq_nil_iff.mp hnone item hitem
              unfold extensionObjection at hobjection
              split at hobjection
              · next hdot => exact hdot
              · cases hobjection
            exact ⟨texts, rfl⟩

end Settings

end ImportAudit
