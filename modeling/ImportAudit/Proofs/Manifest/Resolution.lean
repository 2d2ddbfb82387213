/-
# ImportAudit.Proofs.Manifest.Resolution — the packages that a file may import.

If the closest manifest of a file holds an object, that object alone says what the file may import
(`Governs`): the names in the sections that the options select, and nothing else
(`mem_allowed_ofMembers`).  So what lies elsewhere in the files, and what else the manifest says,
has no influence, and options have the influence of the sections that they select
(`allowedPackages_of_governs`).
-/
import ImportAudit.Proofs.Json.Members
import ImportAudit.Proofs.Manifest.Reading
import ImportAudit.Proofs.Text.Sorted

namespace ImportAudit

namespace Manifest

variable {members : List (Value × Value)}

/-! ## Sections -/

/-- The members of a manifest declare a package in a section: the section is an object, and the
package is one of its names. -/
def Declares (members : List (Value × Value)) (sec : Section) (name : String) : Prop :=
  ∃ entries v, (.text sec.name, .mapping entries) ∈ members ∧ (.text name, v) ∈ entries

theorem sectionOf_fst {sec : Section} {e : Section × List String}
    (h : sectionOf members sec = some e) : e.1 = sec := by
  unfold sectionOf at h
  split at h
  · cases h; rfl
  · cases h

/-- Every section is among those that are read. -/
theorem mem_all (sec : Section) : sec ∈ Section.all := by
  cases sec <;> decide

theorem lookup_filterMap {f : Section → Option (Section × List String)}
    (hf : ∀ sec e, f sec = some e → e.1 = sec) (secs : List Section) (sec : Section) :
    (secs.filterMap f).lookup sec = if sec ∈ secs then (f sec).map Prod.snd else none := by
  induction secs with
  | nil => rfl
  | cons first secs ih =>
      -- no other section has an entry of that name, so a section that is left out is not found
      by_cases hsec : sec = first
      · subst hsec
        rw [if_pos List.mem_cons_self]
        cases hfirst : f sec with
        | none =>
            rw [List.filterMap_cons_none hfirst, ih, hfirst]
            split <;> rfl
        | some e =>
            rw [List.filterMap_cons_some hfirst, List.lookup_cons, hf sec e hfirst,
              beq_self_eq_true]
            rfl
      · have hmem : sec ∈ first :: secs ↔ sec ∈ secs := by simp [hsec]
        simp only [hmem, ← ih]
        cases hfirst : f first with
        | none => rw [List.filterMap_cons_none hfirst]
        | some e =>
            have hne : (sec == e.1) = false := by
              rw [hf first e hfirst, beq_eq_false_iff_ne]
              exact hsec
            rw [List.filterMap_cons_some hfirst, List.lookup_cons, hne]

/-- The names in a section are those of the object that the manifest has for it. -/
theorem packagesIn_ofMembers (sec : Section) :
    (ofMembers members).packagesIn sec = ((sectionOf members sec).map Prod.snd).getD [] := by
  rw [packagesIn, ofMembers, lookup_filterMap (fun _ _ => sectionOf_fst), if_pos (mem_all sec)]

theorem mem_packagesIn_ofMembers (h : Value.IsObject members) {sec : Section} {name : String} :
    name ∈ (ofMembers members).packagesIn sec ↔ Declares members sec name := by
  rw [packagesIn_ofMembers, Declares]
  simp only [← Value.lookup_eq_some_iff h]
  unfold sectionOf
  split
  · next entries hentries =>
      rw [Option.map_some, Option.getD_some, Value.mem_textKeys]
      constructor
      · rintro ⟨v, hv⟩
        exact ⟨entries, v, hentries, hv⟩
      · rintro ⟨entries', v, hentries', hv⟩
        rw [hentries] at hentries'
        cases hentries'
        exact ⟨v, hv⟩
  · next hno =>
      refine ⟨fun hmem => absurd hmem List.not_mem_nil, ?_⟩
      rintro ⟨entries, v, hentries, -⟩
      exact absurd hentries (hno entries)

/-- What is allowed are the names in the sections that are selected. -/
theorem mem_allowed_ofMembers (h : Value.IsObject members) {o : RuleOptions} {name : String} :
    name ∈ (ofMembers members).allowed o ↔
      ∃ sec ∈ Section.selected o, Declares members sec name := by
  rw [allowed, Text.mem_sortedSet, List.mem_flatMap]
  simp only [mem_packagesIn_ofMembers h]

theorem exists_selected_iff {o : RuleOptions} {p : Section → Prop} :
    (∃ sec ∈ Section.selected o, p sec) ↔
      p .dependencies ∨ p (if o.dev then .dev else .peer) ∨ o.optional = true ∧ p .optional := by
  unfold Section.selected
  cases o.optional <;> simp

/-- What is allowed goes by the names in the sections that are selected. -/
theorem allowed_congr {members' : List (Value × Value)} (h : Value.IsObject members)
    (h' : Value.IsObject members') {o : RuleOptions}
    (hsame : ∀ sec ∈ Section.selected o, ∀ name,
      Declares members sec name ↔ Declares members' sec name) :
    (ofMembers members).allowed o = (ofMembers members').allowed o := by
  apply Text.sortedSet_congr
  intro name
  simp only [List.mem_flatMap, mem_packagesIn_ofMembers h, mem_packagesIn_ofMembers h']
  constructor
  · rintro ⟨sec, hsec, hname⟩
    exact ⟨sec, hsec, (hsame sec hsec name).mp hname⟩
  · rintro ⟨sec, hsec, hname⟩
    exact ⟨sec, hsec, (hsame sec hsec name).mpr hname⟩

/-! ## What governs a file -/

/-- A file goes by the object with the members: that is what its closest manifest holds, and there
is no manifest closer to it. -/
def Governs (s : Session) (file : String) (members : List (Value × Value)) : Prop :=
  ∃ closer path farther, candidates s file = closer ++ path :: farther ∧
    (∀ p ∈ closer, s.files.hasEntry s.workingDir p.toString = .ok false) ∧
    objectOf? (held s path) = some members

theorem exists_of_objectOf? {content : Except Files.Fault (List UInt8)}
    (h : objectOf? content = some members) :
    ∃ bytes text, content = .ok bytes ∧ textOf? content = some text ∧
      Json.read text = .ok (.mapping members) := by
  cases htext : textOf? content with
  | none =>
      rw [objectOf?_of_textless htext] at h
      cases h
  | some text =>
      cases content with
      | error f => cases htext
      | ok bytes => exact ⟨bytes, text, rfl, rfl, (objectOf?_eq_some_iff htext).mp h⟩

/-- What governs a file is found. -/
theorem Governs.nearest {s : Session} {file : String} (h : Governs s file members) :
    ∃ path, nearestTo s file = .ok (some path) ∧ objectOf? (held s path) = some members := by
  obtain ⟨closer, path, farther, hcandidates, hcloser, hobject⟩ := h
  obtain ⟨bytes, -, hbytes, -, -⟩ := exists_of_objectOf? hobject
  have hpath := Files.Tree.hasEntry_of_read hbytes
  exact ⟨path, nearestTo_eq_some_iff.mpr ⟨closer, farther, hcandidates, hcloser, hpath⟩, hobject⟩

theorem Governs.isObject {s : Session} {file : String} (h : Governs s file members) :
    Value.IsObject members := by
  obtain ⟨path, -, hobject⟩ := h.nearest
  obtain ⟨-, text, -, -, hread⟩ := exists_of_objectOf? hobject
  exact Json.isObject_of_read hread

end Manifest

namespace Run

open Manifest

variable {s : Session} {file : String} {members : List (Value × Value)}

/-- What governs a file says what it may import. -/
theorem allowedPackages_eq_allowed (h : Governs s file members) (o : RuleOptions) :
    ∃ t, (allowedPackages file o).run s = (.ok ((ofMembers members).allowed o), t) := by
  obtain ⟨path, hnear, hobject⟩ := h.nearest
  rcases load_cases s path with ⟨members', hobject', hload⟩ | ⟨hnone, -⟩ | ⟨hover, -⟩
  · rw [hobject] at hobject'
    cases hobject'
    obtain ⟨t, hrun, -⟩ := allowedPackages_of_load hnear hload o
    exact ⟨t, hrun⟩
  · rw [hobject] at hnone
    cases hnone
  · rw [objectOf?_of_overflows hover] at hobject
    cases hobject

/-- Let a file go by a manifest that holds an object.  Then the packages that it may import are
found, whatever the options, and:

* they are the names in `dependencies`, in `devDependencies` or in `peerDependencies` as the option
  says, and in `optionalDependencies` if that is an option, each of which counts if it is an object;
* asking for optional packages adds those in `optionalDependencies` and no others;
* a package that is declared for development alone may be imported exactly if that is an option,
  and one that is declared for peers alone exactly if it is not;
* wherever the file of any path goes by an object that declares the same in the sections that are
  selected, the same packages are found. -/
theorem allowedPackages_of_governs (h : Governs s file members) :
    ∃ names : RuleOptions → List String,
      (∀ o, ∃ t, (allowedPackages file o).run s = (.ok (names o), t)) ∧
      (∀ o name, name ∈ names o ↔
        Declares members .dependencies name ∨
          Declares members (if o.dev then .dev else .peer) name ∨
          o.optional = true ∧ Declares members .optional name) ∧
      (∀ (o : RuleOptions) name, name ∈ names { o with optional := true } ↔
        name ∈ names { o with optional := false } ∨ Declares members .optional name) ∧
      (∀ name, (∀ sec, Declares members sec name ↔ sec = .dev) →
        ∀ o, name ∈ names o ↔ o.dev = true) ∧
      (∀ name, (∀ sec, Declares members sec name ↔ sec = .peer) →
        ∀ o, name ∈ names o ↔ o.dev = false) ∧
      ∀ (u : Session) (file' : String) (members' : List (Value × Value)) (o : RuleOptions),
        Governs u file' members' →
        (∀ sec ∈ Section.selected o, ∀ name,
          Declares members sec name ↔ Declares members' sec name) →
        ∃ t, (allowedPackages file' o).run u = (.ok (names o), t) := by
  have hmem : ∀ (o : RuleOptions) name, name ∈ (ofMembers members).allowed o ↔
      Declares members .dependencies name ∨ Declares members (if o.dev then .dev else .peer) name ∨
        o.optional = true ∧ Declares members .optional name := by
    intro o name
    rw [mem_allowed_ofMembers h.isObject, exists_selected_iff]
  -- the laws of the options are read off what is a member
  refine ⟨(ofMembers members).allowed, allowedPackages_eq_allowed h, hmem, ?_, ?_, ?_, ?_⟩
  · intro o name
    rw [hmem, hmem]
    simp [or_assoc]
  · intro name hname o
    rw [hmem]
    simp only [hname]
    cases o.dev <;> simp
  · intro name hname o
    rw [hmem]
    simp only [hname]
    cases o.dev <;> simp
  · intro u file' members' o h' hsame
    obtain ⟨t, hrun⟩ := allowedPackages_eq_allowed h' o
    exact ⟨t, hrun.trans (by rw [allowed_congr h.isObject h'.isObject hsame])⟩

/-- The manifest of a project, in which the peers are no object. -/
def projectText : String :=
  "\x7b\"dependencies\": \x7b\"a\": 1\x7d, \"devDependencies\": \x7b\"d\": null\x7d," ++
    "\"peerDependencies\": [\"p\"]," ++
    "\"optionalDependencies\": \x7b\"o\": \"1\", \"a\": \"2\"\x7d\x7d"

/-- A session with a manifest in a project and one above it. -/
def withProject : Session where
  clock := ⟨"", ""⟩
  files := ⟨[(["project"], .directory), (["project", "src"], .directory),
    (["project", "package.json"], .file (Text.Utf8.encode projectText)),
    (["package.json"], .file (Text.Utf8.encode "\x7b\"dependencies\": \x7b\"far\": 1\x7d\x7d"))]⟩

/-- A file of the project goes by the manifest of the project: `a` may be imported in any case, `o`
if optional packages are asked for, and `d` exactly if those for development are. -/
theorem allowedPackages_inProject :
    ∃ members, Governs withProject "project/src/a.js" members ∧ ∃ names : RuleOptions → List String,
      (∀ o, ∃ t, (allowedPackages "project/src/a.js" o).run withProject = (.ok (names o), t)) ∧
      names {} = ["a"] ∧ "o" ∈ names { optional := true } ∧ ∀ o, "d" ∈ names o ↔ o.dev = true := by
  have hcandidates : candidates withProject "project/src/a.js" =
      [⟨"/", ["project", "src", "package.json"]⟩] ++ ⟨"/", ["project", "package.json"]⟩ ::
        [⟨"/", ["package.json"]⟩] := by decide +kernel
  have hcloser : withProject.files.hasEntry withProject.workingDir
      (Path.toString ⟨"/", ["project", "src", "package.json"]⟩) = .ok false := by decide +kernel
  have hpackages : (objectOf? (held withProject ⟨"/", ["project", "package.json"]⟩)).map
      (fun members => Section.all.map (ofMembers members).packagesIn) =
        some [["a"], ["d"], [], ["o", "a"]] := by decide +kernel
  obtain ⟨members, hobject, hsections⟩ := Option.map_eq_some_iff.mp hpackages
  have hgoverns : Governs withProject "project/src/a.js" members :=
    ⟨_, _, _, hcandidates, by simpa using hcloser, hobject⟩
  simp only [Section.all, List.map_cons, List.map_nil, List.cons.injEq, and_true] at hsections
  obtain ⟨hdependencies, hdev, hpeer, hoptional⟩ := hsections
  obtain ⟨names, hruns, hmem, hadd, honlyDev, -⟩ := allowedPackages_of_governs hgoverns
  refine ⟨members, hgoverns, names, hruns, ?_, ?_, ?_⟩
  · have hends : endsIn (allowedPackages "project/src/a.js" {}) withProject
        (fun found _ => found = ["a"]) = true := by decide +kernel
    obtain ⟨found, t, hrun, hfound⟩ := exists_of_endsIn hends
    obtain ⟨t', hrun'⟩ := hruns {}
    rw [hrun] at hrun'
    cases hrun'
    exact of_decide_eq_true hfound
  · refine (hadd {} "o").mpr (.inr ?_)
    rw [← mem_packagesIn_ofMembers hgoverns.isObject, hoptional]
    exact List.mem_cons_self
  · refine honlyDev "d" fun sec => ?_
    rw [← mem_packagesIn_ofMembers hgoverns.isObject]
    cases sec with
    | dependencies => rw [hdependencies]; decide
    | dev => rw [hdev]; decide
    | peer => rw [hpeer]; decide
    | optional => rw [hoptional]; decide

end Run

end ImportAudit
