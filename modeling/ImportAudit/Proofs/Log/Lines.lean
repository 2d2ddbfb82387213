/-
# ImportAudit.Proofs.Log.Lines — a line of the log is read as what it was written for.

An event whose fields have admissible names is not refused (`event_eq_emit`).  Its record has JSON
values for members, each name once (`isValue_ofMembers`), so the line that is written for it is one
line of printable characters and a JSON text of an object with these members (`event_line`).
-/
import ImportAudit.Proofs.Json.Values
import ImportAudit.Proofs.Log.Members

namespace ImportAudit.Log

variable {l : Logger} {clock : Clock} {s : Severity} {event : String}
  {fields : List (String × Value)}

/-! ## Events that are not refused -/

/-- An event can be logged if none of its fields has a barred name: it makes one line if its severity
reaches the threshold, and none otherwise. -/
theorem event_eq_of_not_barred (clock : Clock) (s : Severity) (event : String)
    (h : ∀ name ∈ namesOf fields, name ∉ barred) :
    l.event clock s event fields = .ok (l.emit clock s event fields) ∧
      l.emit clock s event fields =
        if l.admits s then
          [l.lineFor ⟨clock, s, l.component, event, l.fieldsFor event fields⟩]
        else [] := by
  have hname : ∀ f ∈ fields, f.1 ∉ barred := fun f hf => h f.1 (List.mem_map_of_mem hf)
  have hrepeated : Logger.repeated? s.name.toLower fields = none := by
    have hfirst : fields.find? (fun f => f.1 = "self" ∨ f.1 = "event_type") = none := by
      rw [List.find?_eq_none]
      intro f hf
      have hnot := hname f hf
      simp only [decide_eq_true_eq]
      rintro (heq | heq) <;> exact hnot (by rw [heq]; decide)
    have hlevel : fields.any (fun f => f.1 = "level") = false := by
      rw [List.any_eq_false]
      intro f hf
      have hnot := hname f hf
      rw [decide_eq_true_eq]
      intro heq
      exact hnot (by rw [heq]; decide)
    unfold Logger.repeated?
    rw [hfirst, hlevel]
    rfl
  have htaken : (if l.admits s then fields.find? fun f => taken.contains f.1 else none) = none := by
    split
    · rw [List.find?_eq_none]
      intro f hf
      rw [List.contains_iff_mem]
      intro hmem
      refine hname f hf ?_
      simp only [barred, List.mem_append]
      exact .inl (.inr hmem)
    · rfl
  have hworded : fields.any (fun f => f.1 = wordless) = false := by
    rw [List.any_eq_false]
    intro f hf
    rw [decide_eq_true_eq]
    intro heq
    exact hname f hf (by rw [heq]; decide)
  constructor
  · unfold Logger.event
    rw [hrepeated]
    dsimp only
    rw [htaken]
  · unfold Logger.emit
    rw [hworded, Bool.or_false]
    cases l.admits s <;> rfl

/-- An event is not refused if none of its fields has a name that is spoken for. -/
theorem event_eq_emit (clock : Clock) (s : Severity) (event : String)
    (h : ∀ name ∈ namesOf fields, name ∉ spokenFor) :
    l.event clock s event fields = .ok (l.emit clock s event fields) :=
  (event_eq_of_not_barred clock s event fun name hname => not_mem_barred (h name hname)).1

/-- An event makes one line if its severity reaches the threshold, and none otherwise. -/
theorem emit_eq (clock : Clock) (s : Severity) (event : String)
    (h : ∀ name ∈ namesOf fields, name ∉ spokenFor) :
    l.emit clock s event fields =
      if l.admits s then
        [l.lineFor ⟨clock, s, l.component, event, l.fieldsFor event fields⟩]
      else [] :=
  (event_eq_of_not_barred clock s event fun name hname => not_mem_barred (h name hname)).2

/-! ## Members as an object -/

theorem textKeys_map (members : List (String × Value)) :
    Value.textKeys (members.map fun m => (.text m.1, m.2)) = namesOf members := by
  unfold Value.textKeys namesOf
  rw [List.filterMap_map]
  exact congrFun List.filterMap_eq_map members

theorem isObject_map {members : List (String × Value)} (h : (namesOf members).Nodup) :
    Value.IsObject (members.map fun m => (.text m.1, m.2)) := by
  rw [Value.isObject_iff, textKeys_map]
  refine ⟨fun e he => ?_, h⟩
  obtain ⟨m, -, rfl⟩ := List.mem_map.mp he
  exact ⟨m.1, rfl⟩

theorem mem_map_text {members : List (String × Value)} {name : String} {v : Value} :
    (.text name, v) ∈ members.map (fun m => (Value.text m.1, m.2)) ↔ (name, v) ∈ members := by
  rw [List.mem_map]
  constructor
  · rintro ⟨m, hm, heq⟩
    cases heq
    exact hm
  · intro hm
    exact ⟨(name, v), hm, rfl⟩

/-- Members with JSON values, each name once, make a JSON value. -/
theorem isValue_ofMembers {members : List (String × Value)} (honce : (namesOf members).Nodup)
    (h : ∀ name v, (name, v) ∈ members → Json.IsValue v) : Json.IsValue (.ofMembers members) := by
  refine .mapping (isObject_map honce) fun e he => ?_
  obtain ⟨m, hm, rfl⟩ := List.mem_map.mp he
  exact h m.1 m.2 hm

/-! ## Contexts -/

theorem mem_contextOf {filePath runId : Value} {name : String} {v : Value}
    (h : (name, v) ∈ Logger.contextOf filePath runId) :
    name = "run_id" ∧ v = runId ∨ name = "file_path" ∧ v = filePath := by
  unfold Logger.contextOf at h
  rcases List.mem_append.mp h with h | h
  · split at h
    · exact .inl (Prod.mk.inj (List.mem_singleton.mp h))
    · cases h
  · split at h
    · exact .inr (Prod.mk.inj (List.mem_singleton.mp h))
    · cases h

theorem nodup_contextOf (filePath runId : Value) :
    (namesOf (Logger.contextOf filePath runId)).Nodup := by
  unfold Logger.contextOf
  split <;> split <;> simp [namesOf]

theorem admissible_of_contextOf {filePath runId : Value}
    (hcontext : l.context = Logger.contextOf filePath runId)
    (hnames : ∀ name ∈ namesOf fields, name ∉ spokenFor) (honce : (namesOf fields).Nodup) :
    Admissible l fields where
  context := by
    intro name hname
    obtain ⟨v, hmem⟩ := mem_namesOf.mp (hcontext ▸ hname)
    rcases mem_contextOf hmem with ⟨rfl, -⟩ | ⟨rfl, -⟩ <;> decide
  contextOnce := hcontext ▸ nodup_contextOf filePath runId
  given := hnames
  givenOnce := honce

/-! ## Lines -/

/-- Let a logger write JSON in the context of a check, which says which file is checked in which run
as far as these are given.  An event with fields that have JSON values, and names that are not
spoken for and differ, makes one line if its severity reaches the threshold, and none otherwise.
The line consists of printable characters, so it is one line of ASCII; it is a JSON text of an
object, and it is read as this object wherever arrays and objects may lie so deep.  The object has
the time, the severity, the component, the message and the kind of event, the fields with their
values, and what the context says and the fields do not say themselves, and nothing else. -/
theorem Logger.event_line (l : Logger) (hjson : l.json = true) {filePath runId : Value}
    (hcontext : l.context = Logger.contextOf filePath runId) (hpath : Json.IsValue filePath)
    (hrun : Json.IsValue runId) (clock : Clock) (s : Severity) (event : String)
    (hnames : ∀ name ∈ namesOf fields, name ∉ spokenFor) (honce : (namesOf fields).Nodup)
    (hvalues : ∀ name v, (name, v) ∈ fields → Json.IsValue v) :
    ∃ line entries,
      l.event clock s event fields = .ok (if l.admits s then [line] else []) ∧
      Json.Printable line.toList ∧
      Json.IsText line.toList (.mapping entries) ∧
      (∃ deepest, ∀ depth, deepest ≤ depth →
        Json.readValue (line.toList.length + 1) depth line.toList = .ok (.mapping entries, [])) ∧
      (Json.IsBounded Json.maxDepth (.mapping entries) →
        Json.read line.toList = .ok (.mapping entries)) ∧
      Value.IsObject entries ∧
      ∀ name v, (.text name, v) ∈ entries ↔
        (name, v) ∈ ownMembers clock s l.component event ∨ (name, v) ∈ fields ∨
          (name, v) ∈ Logger.contextOf filePath runId ∧ name ∉ namesOf fields := by
  have hadmissible := admissible_of_contextOf hcontext hnames honce
  have hmem : ∀ {name v}, (name, v) ∈
      Record.members ⟨clock, s, l.component, event, l.fieldsFor event fields⟩ ↔
        (name, v) ∈ ownMembers clock s l.component event ∨ (name, v) ∈ fields ∨
          (name, v) ∈ l.context ∧ name ∉ namesOf fields := mem_members hadmissible
  have hnodup := nodup_members ⟨clock, s, l.component, event, l.fieldsFor event fields⟩
  have hline : l.lineFor ⟨clock, s, l.component, event, l.fieldsFor event fields⟩ =
      Json.render .line (.ofMembers
        (Record.members ⟨clock, s, l.component, event, l.fieldsFor event fields⟩)) := by
    unfold Logger.lineFor
    rw [if_pos hjson, Record.jsonLine]
  generalize Record.members ⟨clock, s, l.component, event, l.fieldsFor event fields⟩ = members
    at hmem hnodup hline
  have hvalue : Json.IsValue (.ofMembers members) := by
    refine isValue_ofMembers hnodup fun name v hm => ?_
    rcases hmem.mp hm with hown | hfield | ⟨hctx, -⟩
    · simp only [ownMembers, List.mem_cons, Prod.mk.injEq, List.not_mem_nil, or_false] at hown
      rcases hown with ⟨-, rfl⟩ | ⟨-, rfl⟩ | ⟨-, rfl⟩ | ⟨-, rfl⟩ | ⟨-, rfl⟩ <;> exact .text _
    · exact hvalues name v hfield
    · rw [hcontext] at hctx
      rcases mem_contextOf hctx with ⟨-, rfl⟩ | ⟨-, rfl⟩
      · exact hrun
      · exact hpath
  have htext := Json.isText_render hvalue.isDenotable .line Json.isBlanks_nil
  rw [List.append_nil] at htext
  obtain ⟨deepest, hdeepest⟩ := hvalue.exists_isBounded
  refine ⟨Json.render .line (.ofMembers members),
    members.map fun m : String × Value => (.text m.1, m.2), ?_,
    Json.printable_write hvalue 0, htext, ⟨deepest, fun depth hdepth => ?_⟩,
    fun hbounded => Json.read_of_isText hbounded htext, isObject_map hnodup, fun name v => ?_⟩
  · rw [event_eq_emit clock s event hnames, emit_eq clock s event hnames, hline]
  · exact Json.readValue_render hvalue .line (hdeepest.mono hdepth) (Nat.lt_succ_self _)
  · rw [mem_map_text, hmem, hcontext]

/-- A logger in the context of a check. -/
def checking : Logger where
  component := "implicit_deps.checker"
  threshold := some .debug
  context := Logger.contextOf (.text "src/ä.js") (.text "r1")

/-- Fields of an event, of which one has a name that the context has too. -/
def measured : List (String × Value) :=
  [("ratio", .float (.finite false 7205759403792794 (-56))), ("file_path", .text "b\n.js"),
    ("least", .float (.finite true 1 (-1074))),
    ("names", .list [.null, .mapping [(.text "😀", .int 3)]])]

/-- A field is in the place of a member of the context, and the other members are there. -/
theorem Logger.event_line_measured :
    (∀ name ∈ namesOf measured, name ∉ spokenFor) ∧
    ∃ line entries, checking.event ⟨"t", ""⟩ .info "checked" measured = .ok [line] ∧
      Json.Printable line.toList ∧ Json.IsText line.toList (.mapping entries) ∧
      (.text "file_path", .text "b\n.js") ∈ entries ∧
      (.text "file_path", .text "src/ä.js") ∉ entries ∧ (.text "run_id", .text "r1") ∈ entries ∧
      (.text "ratio", .float (.finite false 7205759403792794 (-56))) ∈ entries := by
  have hnames : ∀ name ∈ namesOf measured, name ∉ spokenFor := by decide
  have hvalues : ∀ name v, (name, v) ∈ measured → Json.IsValue v := by
    intro name v hmem
    simp only [measured, List.mem_cons, Prod.mk.injEq, List.not_mem_nil, or_false] at hmem
    rcases hmem with ⟨-, rfl⟩ | ⟨-, rfl⟩ | ⟨-, rfl⟩ | ⟨-, rfl⟩
    · exact .float false ⟨by decide, by decide, by decide, by decide⟩
    · exact .text _
    · exact .float true ⟨by decide, by decide, by decide, by decide⟩
    · refine .list (List.forall_mem_cons.mpr ⟨.null, List.forall_mem_singleton.mpr ?_⟩)
      exact .mapping (.cons List.not_mem_nil .nil)
        (List.forall_mem_singleton.mpr (.int (by decide +kernel)))
  obtain ⟨line, entries, hline, hprintable, htext, -, -, -, hentries⟩ :=
    Logger.event_line checking rfl rfl (.text _) (.text _) ⟨"t", ""⟩ .info "checked" hnames
      (by decide) hvalues
  refine ⟨hnames, line, entries, hline, hprintable, htext, ?_, ?_, ?_, ?_⟩
  · exact (hentries _ _).mpr (.inr (.inl (by simp [measured])))
  · rw [hentries]
    simp [ownMembers, measured, namesOf]
  · refine (hentries _ _).mpr (.inr (.inr ⟨List.mem_cons_self, by decide⟩))
  · exact (hentries _ _).mpr (.inr (.inl List.mem_cons_self))

example : checking.event ⟨"t", ""⟩ .info "checked" measured = .ok
    ["\x7b\"timestamp\": \"t\", \"level\": \"INFO\", \"component\": \"implicit_deps.checker\", " ++
      "\"message\": \"checked\", \"event_type\": \"checked\", \"run_id\": \"r1\", " ++
      "\"file_path\": \"b\\n.js\", \"ratio\": 0.1, \"least\": -5e-324, " ++
      "\"names\": [null, \x7b\"\\ud83d\\ude00\": 3\x7d]\x7d"] := by
  decide +kernel

end ImportAudit.Log
