/-
# ImportAudit.Proofs.Manifest.Decoding — a manifest declares what its text says.

A text that tells an object is read as that object, with or without the mark of its encoding
(`ofText_of_read`), so the packages of a section are the names in the object that the section is, if
it is one, and no problem is reported (`ofText_declares`).  What else the object has is read and
left, however deep it lies and whatever names it gives more than once.  So an assignment of names to
sections comes back from the text that is written for it (`ofText_render`).
-/
import ImportAudit.Proofs.Json.Decoding
import ImportAudit.Proofs.Manifest.Resolution

namespace ImportAudit

namespace Value

variable {members : List (String × Value)}

theorem textKeys_ofMembers : textKeys (members.map fun m => (.text m.1, m.2)) =
    members.map Prod.fst := by
  induction members with
  | nil => rfl
  | cons m members ih =>
      rw [List.map_cons, textKeys_text_cons, ih]
      rfl

/-- Members with names that are all different are those of an object. -/
theorem isObject_ofMembers (h : (members.map Prod.fst).Nodup) :
    IsObject (members.map fun m => (.text m.1, m.2)) := by
  induction members with
  | nil => exact .nil
  | cons m members ih =>
      rw [List.map_cons, List.nodup_cons] at h
      refine .cons ?_ (ih h.2)
      rw [textKeys_ofMembers]
      exact h.1

end Value

namespace Manifest

/-! ## Sections by name -/

/-- A section goes by its name, and by no other. -/
theorem packagesNamed_name (m : Manifest) (sec : Section) :
    m.packagesNamed sec.name = m.packagesIn sec := by
  cases sec <;> rfl

theorem packagesNamed_of_ne (m : Manifest) {name : String} (h : ∀ sec : Section, name ≠ sec.name) :
    m.packagesNamed name = [] := by
  have hnone : Section.all.find? (fun s => s.name = name) = none := by
    rw [List.find?_eq_none]
    intro sec _ heq
    exact h sec (of_decide_eq_true heq).symm
  unfold packagesNamed
  rw [hnone]

/-! ## Texts of objects -/

/-- A text that is read does not begin with the mark, so that there is nothing to take off. -/
theorem withoutMark_of_read {text : List Char} {v : Value} (h : Json.read text = .ok v) :
    withoutMark text = text := by
  cases text with
  | nil => rfl
  | cons c cs =>
      have hc : c ≠ byteOrderMark := by
        rintro rfl
        cases h
      rw [withoutMark, if_neg hc]

/-- One mark before a text of an object makes no difference. -/
theorem ofText_of_read {cs : List Char} {members : List (Value × Value)}
    (h : Json.read cs = .ok (.mapping members)) (path : Option String) {text : List Char}
    (htext : text = cs ∨ text = byteOrderMark :: cs) :
    ofText path text = .ok (ofMembers members, none) := by
  have hwithout : withoutMark text = cs := by
    rcases htext with rfl | rfl
    · exact withoutMark_of_read h
    · rw [withoutMark, if_pos rfl]
  unfold ofText
  dsimp only
  rw [hwithout, h]

/-- The names of a section that is an object are its names. -/
theorem mem_packagesIn_of_mapping {members entries : List (Value × Value)} {sec : Section}
    (h : Value.lookup sec.name members = some (.mapping entries)) {name : String} :
    name ∈ (ofMembers members).packagesIn sec ↔ ∃ v, (.text name, v) ∈ entries := by
  rw [packagesIn_ofMembers, sectionOf, h]
  exact Value.mem_textKeys

/-- A section that is no object, or is not there, has no names. -/
theorem packagesIn_of_not_mapping {members : List (Value × Value)} {sec : Section}
    (h : ∀ entries, Value.lookup sec.name members ≠ some (.mapping entries)) :
    (ofMembers members).packagesIn sec = [] := by
  rw [packagesIn_ofMembers, sectionOf]
  split
  · next entries heq => exact absurd heq (h entries)
  · rfl

/-! ## Writing an assignment of names -/

/-- The object that assigns names to sections, each with a version. -/
def declaring (names : Section → List String) (version : Section → String → String) : Value :=
  .ofMembers (Section.all.map fun sec =>
    (sec.name, .ofMembers ((names sec).map fun name => (name, .text (version sec name)))))

variable {names : Section → List String} {version : Section → String → String}

theorem nodup_names : (Section.all.map Section.name).Nodup := by decide +kernel

theorem isObject_declaring : Value.IsObject ((Section.all.map fun sec =>
    (sec.name, Value.ofMembers ((names sec).map fun name => (name, .text (version sec name))))).map
      fun m => (.text m.1, m.2)) := by
  apply Value.isObject_ofMembers
  rw [List.map_map]
  exact nodup_names

theorem isPlain_declaring (h : ∀ sec, (names sec).Nodup) (version : Section → String → String) :
    Json.IsPlain (declaring names version) := by
  refine .mapping isObject_declaring ?_
  intro e he
  rw [List.map_map] at he
  obtain ⟨sec, -, rfl⟩ := List.mem_map.mp he
  refine .mapping (Value.isObject_ofMembers ?_) ?_
  · rw [List.map_map]
    exact (List.map_id' (names sec)).symm ▸ h sec
  · intro d hd
    rw [List.map_map] at hd
    obtain ⟨name, -, rfl⟩ := List.mem_map.mp hd
    exact .text _

theorem isBounded_declaring (depth : Nat) :
    Json.IsBounded (depth + 2) (declaring names version) := by
  refine .mapping ?_
  intro e he
  rw [List.map_map] at he
  obtain ⟨sec, -, rfl⟩ := List.mem_map.mp he
  refine .mapping ?_
  intro d hd
  rw [List.map_map] at hd
  obtain ⟨name, -, rfl⟩ := List.mem_map.mp hd
  exact .flat trivial

/-- What is written for an assignment is read as that assignment. -/
theorem ofText_render (h : ∀ sec, (names sec).Nodup) (version : Section → String → String)
    (style : Json.Style) (path : Option String) {text : List Char}
    (htext : text = (Json.render style (declaring names version)).toList ∨
      text = byteOrderMark :: (Json.render style (declaring names version)).toList) :
    ∃ m, ofText path text = .ok (m, none) ∧ ∀ sec, m.packagesIn sec = names sec := by
  have hread : Json.read (Json.render style (declaring names version)).toList =
      .ok (declaring names version) := by
    have htext := Json.isText_render (isPlain_declaring h version).isDenotable style Json.isBlanks_nil
    rw [List.append_nil] at htext
    -- objects in an object are well within the depth that the reader goes down to
    exact Json.read_of_isText (isBounded_declaring (Json.maxDepth - 2)) htext
  refine ⟨_, ofText_of_read hread path htext, fun sec => ?_⟩
  have hlookup : Value.lookup sec.name ((Section.all.map fun sec =>
      (sec.name, Value.ofMembers ((names sec).map fun name => (name, .text (version sec name))))).map
        fun m => (.text m.1, m.2)) =
      some (.ofMembers ((names sec).map fun name => (name, .text (version sec name)))) := by
    rw [Value.lookup_eq_some_iff isObject_declaring, List.map_map]
    exact List.mem_map.mpr ⟨sec, mem_all sec, rfl⟩
  rw [packagesIn_ofMembers, sectionOf, hlookup]
  show Value.textKeys _ = _
  rw [Value.textKeys_ofMembers, List.map_map]
  exact List.map_id' _

/-! ## Every text of an object -/

/-- Let a text tell an object, with or without one mark before it.  It is read as a manifest, and no
problem is reported.  A section that is an object has the names of that object and no others; one
that is anything else or is not there has none, and neither has what is no section.  In particular
an assignment of names to the sections comes back from every text that is written for it. -/
theorem ofText_declares :
    (∀ (cs text : List Char) (members : List (Value × Value)) (path : Option String),
      Json.TellsText cs (.mapping members) → text = cs ∨ text = byteOrderMark :: cs →
      ∃ m, ofText path text = .ok (m, none) ∧
        (∀ sec entries, Value.lookup (Section.name sec) members = some (.mapping entries) →
          ∀ name, name ∈ m.packagesNamed sec.name ↔ ∃ v, (.text name, v) ∈ entries) ∧
        (∀ sec, (∀ entries, Value.lookup (Section.name sec) members ≠ some (.mapping entries)) →
          m.packagesNamed sec.name = []) ∧
        (∀ name, (∀ sec, name ≠ Section.name sec) → m.packagesNamed name = [])) ∧
    (∀ (names : Section → List String) (version : Section → String → String) (style : Json.Style)
      (text : List Char) (path : Option String), (∀ sec, (names sec).Nodup) →
      (text = (Json.render style (declaring names version)).toList ∨
        text = byteOrderMark :: (Json.render style (declaring names version)).toList) →
      ∃ m, ofText path text = .ok (m, none) ∧
        ∀ sec, m.packagesNamed (Section.name sec) = names sec) := by
  constructor
  · intro cs text members path htells htext
    have hread := Json.read_of_tellsText htells
    refine ⟨ofMembers members, ofText_of_read hread path htext, ?_, ?_, ?_⟩
    · intro sec entries hentries name
      rw [packagesNamed_name]
      exact mem_packagesIn_of_mapping hentries
    · intro sec hno
      rw [packagesNamed_name]
      exact packagesIn_of_not_mapping hno
    · intro name hname
      exact packagesNamed_of_ne _ hname
  · intro names version style text path hnodup htext
    obtain ⟨m, hm, hnames⟩ := ofText_render hnodup version style path htext
    refine ⟨m, hm, fun sec => ?_⟩
    rw [packagesNamed_name]
    exact hnames sec

/-- A text in which a section is given twice, the second time as an object whose names are written
with escapes. -/
def escapedText : List Char :=
  "\x7b \"dependencies\":0,\"dependencies\": \x7b\"\\u0078\":\"\",\"\\ud83d\\ude00\":[]\x7d\x7d".toList

/-- The members that count. -/
def escapedMembers : List (Value × Value) :=
  [(.text "dependencies", .mapping [(.text "x", .text ""), (.text "😀", .list [])])]

theorem tells_escapedText (depth : Nat) :
    Json.Tells (depth + 3) escapedText (.mapping escapedMembers) := by
  have hnil : Json.IsBlanks [] := nofun
  have hspace : Json.IsBlanks [' '] := by
    intro c hc
    rw [List.mem_singleton.mp hc]
    rfl
  have hname : Json.SpellsAll "dependencies".toList "dependencies".toList := by
    have hspells := Json.spellsAll_flatMap false "dependencies".toList
    have heq : "dependencies".toList.flatMap (Json.stringChar false) = "dependencies".toList := by
      decide +kernel
    rwa [heq] at hspells
  have hx : Json.SpellsAll "\\u0078".toList "x".toList :=
    .cons (.unit (by decide)) .nil
  have hsmile : Json.SpellsAll "\\ud83d\\ude00".toList "😀".toList := by
    have hpair : Json.pairChar 0xD83D 0xDE00 = '😀' := by decide
    have hspells : Json.Spells "\\ud83d\\ude00".toList (Json.pairChar 0xD83D 0xDE00) :=
      .pair (by decide) (by decide) (by decide) (by decide)
    rw [hpair] at hspells
    exact .cons hspells .nil
  have hdigit : ∀ c ∈ ['0'], c.isDigit = true := by
    intro c hc
    rw [List.mem_singleton.mp hc]
    rfl
  have hzero : Json.Tells (depth + 2) ['0'] (.int 0) :=
    .inl ⟨.integer false ⟨⟨hdigit, nofun⟩, fun _ => rfl⟩,
      (by decide +kernel : Json.FewDigits 0)⟩
  have hempty : Json.Tells (depth + 1) ('"' :: [] ++ ['"']) (.text "") := by
    have hspells : Json.SpellsAll [] "".toList := .nil
    exact .inl ⟨.text hspells, trivial⟩
  have hlist : Json.Tells (depth + 1) "[]".toList (.list []) := .inr (.noItems hnil)
  have hinner := Json.Nested.members (.more (.mk hnil hx hnil hnil hempty hnil)
    (.one (.mk hnil hsmile hnil hnil hlist hnil)))
  have hmembers := Json.Members.more (.mk hspace hname hnil hnil hzero hnil)
    (.one (.mk hnil hname hnil hspace (.inr hinner) hnil))
  exact .inr (.members hmembers)

/-- The names that escapes stand for are declared, and a list of names comes back as it was. -/
theorem ofText_declares_escaped :
    (∃ m, ofText (some "package.json") (byteOrderMark :: escapedText) = .ok (m, none) ∧
      ∀ name, name ∈ m.packagesNamed "dependencies" ↔ name = "x" ∨ name = "😀") ∧
    ∃ m, ofText none (Json.render .file (declaring (fun _ => ["ä", "b\"c"]) fun _ _ => "*")).toList =
        .ok (m, none) ∧ m.packagesNamed "devDependencies" = ["ä", "b\"c"] := by
  constructor
  · obtain ⟨m, hm, hnames, -, -⟩ := ofText_declares.1 escapedText _ escapedMembers
      (some "package.json") ⟨[], _, [], nofun, tells_escapedText 987, nofun, rfl⟩ (.inr rfl)
    refine ⟨m, hm, fun name => ?_⟩
    have hdependencies := hnames .dependencies _ rfl name
    refine hdependencies.trans ?_
    simp [exists_or]
  · obtain ⟨m, hm, hnames⟩ := ofText_declares.2 (fun _ => ["ä", "b\"c"]) (fun _ _ => "*") .file _
      none (fun _ => by decide) (.inl rfl)
    exact ⟨m, hm, hnames .dev⟩

end Manifest

end ImportAudit
