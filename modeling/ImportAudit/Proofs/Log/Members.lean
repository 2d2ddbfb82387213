/-
# ImportAudit.Proofs.Log.Members — what a record of an event says.

Members that are put in place of others or behind them are looked up before these (`mem_putAll`),
and no name is given twice (`nodup_putAll`).  The fields of an event may have any name but those
that are spoken for (`spokenFor`).  So no field takes the place of what every record says, or of the
kind of event, and none is left out: a record of an event says these, the fields, and of the context
what the fields do not say themselves (`mem_members`).
-/
import ImportAudit.Log.Logger
import Mathlib.Data.List.Nodup

namespace ImportAudit.Log

variable {members more : List (String × Value)} {name key : String} {v w : Value}

/-- The names of members. -/
def namesOf (members : List (String × Value)) : List String := members.map (·.1)

theorem mem_namesOf : name ∈ namesOf members ↔ ∃ v, (name, v) ∈ members := by
  unfold namesOf
  rw [List.mem_map]
  constructor
  · rintro ⟨⟨k, v⟩, hm, rfl⟩
    exact ⟨v, hm⟩
  · rintro ⟨v, hm⟩
    exact ⟨(name, v), hm, rfl⟩

/-! ## Members put in place of others -/

theorem namesOf_put (name : String) (v : Value) (members : List (String × Value)) :
    namesOf (put name v members) =
      if name ∈ namesOf members then namesOf members else namesOf members ++ [name] := by
  induction members with
  | nil => rfl
  | cons m members ih =>
      obtain ⟨k, w⟩ := m
      have hcons : ∀ ms : List (String × Value), namesOf ((k, w) :: ms) = k :: namesOf ms :=
        fun _ => rfl
      rw [put]
      split
      · next hk => rw [if_pos (by rw [hcons, hk]; exact List.mem_cons_self)]; rfl
      · next hk =>
          rw [hcons, hcons, ih]
          simp only [List.mem_cons, Ne.symm hk, false_or]
          split <;> rfl

theorem nodup_put (h : (namesOf members).Nodup) (name : String) (v : Value) :
    (namesOf (put name v members)).Nodup := by
  rw [namesOf_put]
  split
  · exact h
  · next hname => exact List.nodup_append.mpr ⟨h, List.nodup_singleton name, by
      intro k hk n hn hkn
      rw [List.mem_singleton.mp hn] at hkn
      exact hname (hkn ▸ hk)⟩

/-- A member that is put replaces the one of its name. -/
theorem mem_put (h : (namesOf members).Nodup) :
    (key, w) ∈ put name v members ↔ key = name ∧ w = v ∨ key ≠ name ∧ (key, w) ∈ members := by
  induction members with
  | nil =>
      rw [put, List.mem_singleton, Prod.mk.injEq]
      simp
  | cons m members ih =>
      obtain ⟨k, u⟩ := m
      obtain ⟨hnew, hrest⟩ := List.nodup_cons.mp h
      rw [put]
      split
      · next hk =>
          subst hk
          rw [List.mem_cons, List.mem_cons, Prod.mk.injEq, Prod.mk.injEq]
          -- no other member has the name that is replaced
          have hother : (key, w) ∈ members → key ≠ k := fun hmem hkey =>
            hnew (mem_namesOf.mpr ⟨w, hkey ▸ hmem⟩)
          constructor
          · rintro (hput | hmem)
            · exact .inl hput
            · exact .inr ⟨hother hmem, .inr hmem⟩
          · rintro (hput | ⟨hne, ⟨hkey, -⟩ | hmem⟩)
            · exact .inl hput
            · exact absurd hkey hne
            · exact .inr hmem
      · next hk =>
          rw [List.mem_cons, List.mem_cons, ih hrest, Prod.mk.injEq]
          constructor
          · rintro (⟨rfl, rfl⟩ | hput | ⟨hne, hmem⟩)
            · exact .inr ⟨hk, .inl ⟨rfl, rfl⟩⟩
            · exact .inl hput
            · exact .inr ⟨hne, .inr hmem⟩
          · rintro (hput | ⟨hne, hfirst | hmem⟩)
            · exact .inr (.inl hput)
            · exact .inl hfirst
            · exact .inr (.inr ⟨hne, hmem⟩)

theorem putAll_cons (m : String × Value) :
    putAll members (m :: more) = putAll (put m.1 m.2 members) more := rfl

theorem nodup_putAll (h : (namesOf members).Nodup) (more : List (String × Value)) :
    (namesOf (putAll members more)).Nodup := by
  induction more generalizing members with
  | nil => exact h
  | cons m more ih => exact ih (nodup_put h m.1 m.2)

/-- Members that are put in place of others are what their names stand for; other names stand for
what they did. -/
theorem mem_putAll (h : (namesOf members).Nodup) (hmore : (namesOf more).Nodup) :
    (key, w) ∈ putAll members more ↔
      (key, w) ∈ more ∨ key ∉ namesOf more ∧ (key, w) ∈ members := by
  induction more generalizing members with
  | nil => simp [putAll, namesOf]
  | cons m more ih =>
      obtain ⟨name, v⟩ := m
      obtain ⟨hnew, hrest⟩ := List.nodup_cons.mp hmore
      have hnames : key ∉ namesOf ((name, v) :: more) ↔ key ≠ name ∧ key ∉ namesOf more := by
        show ¬key ∈ name :: namesOf more ↔ _
        rw [List.mem_cons, not_or]
      rw [putAll_cons, ih (nodup_put h name v) hrest, mem_put h, hnames, List.mem_cons,
        Prod.mk.injEq]
      constructor
      · rintro (hmem | ⟨hnot, hput | ⟨hne, hmem⟩⟩)
        · exact .inl (.inr hmem)
        · exact .inl (.inl hput)
        · exact .inr ⟨⟨hne, hnot⟩, hmem⟩
      · rintro ((⟨rfl, rfl⟩ | hmem) | ⟨⟨hne, hnot⟩, hmem⟩)
        · exact .inr ⟨hnew, .inl ⟨rfl, rfl⟩⟩
        · exact .inl hmem
        · exact .inr ⟨hnot, .inr ⟨hne, hmem⟩⟩

/-! ## Records of events -/

/-- The names that no field of an event may have: those of parameters, those of what every record
says, and those of parts of a record. -/
def spokenFor : List String :=
  ["self", "event_type", "timestamp", "level", "component"] ++ taken ++ hidden ++ [wordless]

/-- The names of fields with which an event cannot be logged: those of parameters, those of parts of
a record, and that of the action that words it. -/
def barred : List String := ["self", "event_type", "level"] ++ taken ++ [wordless]

theorem not_mem_barred (h : name ∉ spokenFor) : name ∉ barred := by
  intro hbarred
  refine h ?_
  simp only [barred, List.mem_append] at hbarred
  simp only [spokenFor, List.mem_append]
  rcases hbarred with (hparameter | htaken) | hworded
  · refine .inl (.inl (.inl ?_))
    rcases List.mem_cons.mp hparameter with rfl | hparameter
    · decide
    · rcases List.mem_cons.mp hparameter with rfl | hparameter
      · decide
      · rw [List.mem_singleton.mp hparameter]
        decide
  · exact .inl (.inl (.inr htaken))
  · exact .inr hworded

/-- What a record says of an event besides its fields and its context. -/
def ownMembers (clock : Clock) (s : Severity) (component event : String) : List (String × Value) :=
  [("timestamp", .text clock.stamp), ("level", .text s.name), ("component", .text component),
    ("message", .text event), ("event_type", .text event)]

variable {l : Logger} {clock : Clock} {s : Severity} {event : String}
  {fields : List (String × Value)}

/-- The names in a context and those of fields may be the same, but they are not spoken for. -/
structure Admissible (l : Logger) (fields : List (String × Value)) : Prop where
  context : ∀ name ∈ namesOf l.context, name ∉ spokenFor
  contextOnce : (namesOf l.context).Nodup
  given : ∀ name ∈ namesOf fields, name ∉ spokenFor
  givenOnce : (namesOf fields).Nodup

/-- The fields of a record: the kind of event, the fields given, and of the context what these do
not say. -/
theorem mem_fieldsFor (h : Admissible l fields) :
    (key, w) ∈ l.fieldsFor event fields ↔ (key, w) = ("event_type", .text event) ∨
      (key, w) ∈ fields ∨ (key, w) ∈ l.context ∧ key ∉ namesOf fields := by
  have hone : (namesOf [("event_type", Value.text event)]).Nodup := List.nodup_singleton _
  have hspoken : "event_type" ∈ spokenFor := by decide
  unfold Logger.fieldsFor
  rw [mem_putAll (nodup_putAll hone _) h.givenOnce, mem_putAll hone h.contextOnce,
    List.mem_singleton]
  constructor
  · rintro (hmem | ⟨hnot, hmem | ⟨-, hevent⟩⟩)
    · exact .inr (.inl hmem)
    · exact .inr (.inr ⟨hmem, hnot⟩)
    · exact .inl hevent
  · rintro (hevent | hmem | ⟨hmem, hnot⟩)
    · obtain ⟨rfl, rfl⟩ := Prod.mk.inj hevent
      exact .inr ⟨fun hname => h.given _ hname hspoken,
        .inr ⟨fun hname => h.context _ hname hspoken, hevent⟩⟩
    · exact .inl hmem
    · exact .inr ⟨hnot, .inl hmem⟩

theorem namesOf_fieldsFor (h : Admissible l fields)
    (hkey : key ∈ namesOf (l.fieldsFor event fields)) : key = "event_type" ∨ key ∉ spokenFor := by
  obtain ⟨w, hmem⟩ := mem_namesOf.mp hkey
  rcases (mem_fieldsFor h).mp hmem with heq | hmem | ⟨hmem, -⟩
  · exact .inl (Prod.mk.inj heq).1
  · exact .inr (h.given key (mem_namesOf.mpr ⟨w, hmem⟩))
  · exact .inr (h.context key (mem_namesOf.mpr ⟨w, hmem⟩))

/-- A record of an event says what every record says, what its fields say, and of the context what
these do not say, and nothing else. -/
theorem mem_members (h : Admissible l fields) :
    (key, w) ∈ Record.members ⟨clock, s, l.component, event, l.fieldsFor event fields⟩ ↔
      (key, w) ∈ ownMembers clock s l.component event ∨ (key, w) ∈ fields ∨
        (key, w) ∈ l.context ∧ key ∉ namesOf fields := by
  have hkept : (l.fieldsFor event fields).filter (fun f => !hidden.contains f.1) =
      l.fieldsFor event fields := by
    rw [List.filter_eq_self]
    intro f hf
    have hname := namesOf_fieldsFor h (mem_namesOf.mpr ⟨f.2, hf⟩)
    rw [Bool.not_eq_true', ← Bool.not_eq_true, List.contains_iff_mem]
    intro hhidden
    rcases hname with heq | hnot
    · rw [heq] at hhidden
      exact absurd hhidden (by decide)
    · exact hnot (by simp only [spokenFor, List.mem_append]; exact .inl (.inr hhidden))
  have hevery : ∀ name ∈ ["timestamp", "level", "component", "message"],
      name ∉ namesOf (l.fieldsFor event fields) := by
    intro name hname hmem
    have hspoken : ∀ name ∈ ["timestamp", "level", "component", "message"],
        name ∈ spokenFor ∧ name ≠ "event_type" := by decide
    rcases namesOf_fieldsFor h hmem with heq | hnot
    · exact (hspoken name hname).2 heq
    · exact hnot (hspoken name hname).1
  have hkind : (namesOf [("event_type", Value.text event)]).Nodup := List.nodup_singleton _
  have hone : (namesOf (l.fieldsFor event fields)).Nodup := nodup_putAll (nodup_putAll hkind _) _
  unfold Record.members
  rw [hkept, mem_putAll (by simp [namesOf]) hone, mem_fieldsFor h]
  constructor
  · rintro ((heq | hmem) | ⟨-, hmem⟩)
    · exact .inl (by simp [ownMembers, heq])
    · exact .inr hmem
    · exact .inl (List.mem_append_left [("event_type", Value.text event)] hmem)
  · rintro (hmem | hmem)
    · rcases List.mem_append.mp (show (key, w) ∈ [("timestamp", Value.text clock.stamp),
          ("level", .text s.name), ("component", .text l.component), ("message", .text event)] ++
          [("event_type", .text event)] from hmem) with hmem | hmem
      · exact .inr ⟨hevery key (mem_namesOf.mpr ⟨w, hmem⟩), hmem⟩
      · exact .inl (.inl (List.mem_singleton.mp hmem))
    · exact .inl (.inr hmem)

theorem nodup_members (r : Record) : (namesOf r.members).Nodup :=
  nodup_putAll (by simp [namesOf]) _

end ImportAudit.Log
