/-
# ImportAudit.Proofs.Manifest.Reading — what becomes of a manifest, whatever it holds.

The file of a manifest may hold an object, or something that is of no use: bytes that are no text, a
text that is no JSON, a value that is no object, or it may be no file at all.  What is of no use is
reported once and allows nothing, as if there were no manifest (`load_cases`).  There is one thing
besides: a text that goes beyond the bounds of the JSON reader (`Overflows`).  That is a fault which
nobody handles, so the packages that a file may import are found exactly if the manifest does not
overflow (`allowedPackages_softFails`), and it takes an integer of more than 4300 digits or more
than 990 opening brackets to overflow (`exists_of_overflows`).
-/
import ImportAudit.Proofs.Json.Bounds
import ImportAudit.Proofs.Manifest.Nearest
import ImportAudit.Proofs.Session.Locality
import ImportAudit.Proofs.Text.Utf8

namespace ImportAudit

namespace Manifest

open Json (maxDigits maxDepth opens)

/-! ## What a file holds -/

/-- What the file of a manifest holds, or why it cannot be read. -/
def held (s : Session) (path : Path) : Except Files.Fault (List UInt8) :=
  s.files.read s.workingDir path.toString

/-- The text that is read as JSON, if the file can be read and holds a text. -/
def textOf? : Except Files.Fault (List UInt8) → Option (List Char)
  | .error _ => none
  | .ok bytes =>
    match Text.Utf8.decode bytes with
    | .error _ => none
    | .ok text => some (withoutMark (Text.Utf8.unifyLines text))

/-- The members of the object that the file holds, if it holds one. -/
def objectOf? (content : Except Files.Fault (List UInt8)) : Option (List (Value × Value)) :=
  match textOf? content with
  | none => none
  | some text =>
    match Json.read text with
    | .ok (.mapping members) => some members
    | _ => none

/-- The file holds a text that goes beyond the bounds of the JSON reader: the reader gives up, but
not because the text is malformed. -/
def Overflows (content : Except Files.Fault (List UInt8)) : Prop :=
  ∃ text fault, textOf? content = some text ∧ Json.read text = .error fault ∧
    ∀ complaint rest, fault ≠ .malformed complaint rest

section Content

variable {content : Except Files.Fault (List UInt8)}

theorem objectOf?_of_textless (h : textOf? content = none) : objectOf? content = none := by
  rw [objectOf?, h]

theorem not_overflows_of_textless (h : textOf? content = none) : ¬Overflows content := by
  rintro ⟨text, fault, htext, -⟩
  rw [h] at htext
  cases htext

theorem objectOf?_eq_some_iff {text : List Char} (h : textOf? content = some text)
    {members : List (Value × Value)} :
    objectOf? content = some members ↔ Json.read text = .ok (.mapping members) := by
  rw [objectOf?, h]
  dsimp only
  split
  · next members' hread => rw [hread]; simp
  · next hno => exact ⟨nofun, fun hread => absurd hread (hno members)⟩

theorem overflows_iff {text : List Char} (h : textOf? content = some text) :
    Overflows content ↔ ∃ fault, Json.read text = .error fault ∧
      ∀ complaint rest, fault ≠ .malformed complaint rest := by
  constructor
  · rintro ⟨text', fault, htext, hfault⟩
    rw [h] at htext
    cases htext
    exact ⟨fault, hfault⟩
  · rintro ⟨fault, hfault⟩
    exact ⟨text, fault, h, hfault⟩

/-- What overflows is no object. -/
theorem objectOf?_of_overflows (h : Overflows content) : objectOf? content = none := by
  obtain ⟨text, fault, htext, hread, -⟩ := h
  rw [Option.eq_none_iff_forall_ne_some]
  intro members hmembers
  rw [objectOf?_eq_some_iff htext, hread] at hmembers
  cases hmembers

/-- It takes many digits in a row, or many opening brackets. -/
theorem exists_of_overflows (h : Overflows content) :
    ∃ text, textOf? content = some text ∧
      ((∃ digits, digits <:+: text ∧ (∀ d ∈ digits, d.isDigit = true) ∧
          maxDigits < digits.length) ∨
        maxDepth < text.countP opens) := by
  obtain ⟨text, fault, htext, hread, hbeyond⟩ := h
  refine ⟨text, htext, ?_⟩
  cases Json.within_of_read hread with
  | malformed complaint rest => exact absurd rfl (hbeyond complaint rest)
  | longInteger digits stand hdigits long => exact .inl ⟨digits, stand, hdigits, long⟩
  | tooDeep array deep => exact .inr deep

/-- A text is read as it was stored if its lines end in line feeds and no mark comes first. -/
theorem textOf?_encode {text : String} (hlines : '\r' ∉ text.toList)
    (hmark : text.toList.head? ≠ some byteOrderMark) :
    textOf? (.ok (Text.Utf8.encode text)) = some text.toList := by
  rw [textOf?, Text.Utf8.decode_encode]
  dsimp only
  rw [Text.Utf8.unifyLines_of_notMem hlines]
  cases hchars : text.toList with
  | nil => rfl
  | cons c cs =>
      rw [hchars, List.head?_cons, ne_eq, Option.some.injEq] at hmark
      rw [withoutMark, if_neg hmark]

end Content

/-! ## Loading -/

/-- What comes of a text goes by what is read behind the mark: an object, something that is of no
use, or a fault that is handed on because the text is not malformed. -/
theorem ofText_cases (path : Option String) (text : List Char) :
    (∃ members, Json.read (withoutMark text) = .ok (.mapping members) ∧
      ofText path text = .ok (ofMembers members, none)) ∨
    ((∀ members, Json.read (withoutMark text) ≠ .ok (.mapping members)) ∧
      (∀ fault, Json.read (withoutMark text) = .error fault →
        ∃ complaint rest, fault = .malformed complaint rest) ∧
      ∃ p : Problem, p.category = .manifest ∧ ofText path text = .ok ({}, some p)) ∨
    (∃ fault, Json.read (withoutMark text) = .error fault ∧
      (∀ complaint rest, fault ≠ .malformed complaint rest) ∧
      ofText path text = .error (.json fault (withoutMark text))) := by
  rw [ofText]
  cases hread : Json.read (withoutMark text) with
  | ok v =>
      cases v with
      | mapping members => exact .inl ⟨members, rfl, rfl⟩
      | _ => exact .inr (.inl ⟨nofun, nofun, _, rfl, rfl⟩)
  | error fault =>
      cases fault with
      | malformed complaint rest =>
          refine .inr (.inl ⟨nofun, fun f hf => ?_, _, rfl, rfl⟩)
          exact ⟨complaint, rest, (Except.error.inj hf).symm⟩
      | longInteger digits => exact .inr (.inr ⟨_, rfl, nofun, rfl⟩)
      | tooDeep array => exact .inr (.inr ⟨_, rfl, nofun, rfl⟩)

section Loading

variable {s : Session} {path : Path}

/-- A file that holds no text is of no use. -/
theorem load_of_textless (h : textOf? (held s path) = none) :
    ∃ p : Problem, p.category = .manifest ∧ load s.files s.workingDir path = .ok ({}, some p) := by
  unfold held at h
  unfold load
  cases hheld : s.files.read s.workingDir path.toString with
  | error f => exact ⟨_, rfl, rfl⟩
  | ok bytes =>
      rw [hheld, textOf?] at h
      dsimp only
      rw [ofBytes]
      cases hdecode : Text.Utf8.decode bytes with
      | error f => exact ⟨_, rfl, rfl⟩
      | ok chars =>
          rw [hdecode] at h
          cases h

/-- A file that holds a text is what comes of that text. -/
theorem load_eq_ofText {text : List Char} (h : textOf? (held s path) = some text) :
    ∃ chars, withoutMark chars = text ∧
      load s.files s.workingDir path = ofText (some path.toString) chars := by
  unfold held at h
  unfold load
  cases hheld : s.files.read s.workingDir path.toString with
  | error f =>
      rw [hheld] at h
      cases h
  | ok bytes =>
      rw [hheld, textOf?] at h
      dsimp only
      rw [ofBytes]
      cases hdecode : Text.Utf8.decode bytes with
      | error f =>
          rw [hdecode] at h
          cases h
      | ok chars =>
          rw [hdecode] at h
          exact ⟨_, Option.some.inj h, rfl⟩

end Loading

/-- There are three ways of loading a manifest: the file holds an object, it is of no use and one
problem tells of it, or it overflows and nothing is loaded. -/
theorem load_cases (s : Session) (path : Path) :
    (∃ members, objectOf? (held s path) = some members ∧
      load s.files s.workingDir path = .ok (ofMembers members, none)) ∨
    (objectOf? (held s path) = none ∧ ¬Overflows (held s path) ∧
      ∃ p : Problem, p.category = .manifest ∧
        load s.files s.workingDir path = .ok ({}, some p)) ∨
    (Overflows (held s path) ∧ ∃ f, load s.files s.workingDir path = .error f) := by
  cases htext : textOf? (held s path) with
  | none =>
      exact .inr (.inl ⟨objectOf?_of_textless htext, not_overflows_of_textless htext,
        load_of_textless htext⟩)
  | some text =>
      obtain ⟨chars, rfl, hload⟩ := load_eq_ofText htext
      rw [hload]
      rcases ofText_cases (some path.toString) chars with
        ⟨members, hread, htaken⟩ | ⟨hno, hmalformed, huseless⟩ | ⟨fault, hread, hbeyond, hfault⟩
      · exact .inl ⟨members, (objectOf?_eq_some_iff htext).mpr hread, htaken⟩
      · refine .inr (.inl ⟨?_, ?_, huseless⟩)
        · rw [Option.eq_none_iff_forall_ne_some]
          exact fun members hmembers => hno members ((objectOf?_eq_some_iff htext).mp hmembers)
        · rw [overflows_iff htext]
          rintro ⟨fault, hread, hbeyond⟩
          obtain ⟨complaint, rest, hfault⟩ := hmalformed fault hread
          exact hbeyond complaint rest hfault
      · exact .inr (.inr ⟨(overflows_iff htext).mpr ⟨fault, hread, hbeyond⟩, _, hfault⟩)

end Manifest

/-! ## Finding the packages that a file may import -/

namespace Run

open Manifest

theorem reportAny_returns (p : Option Problem) (s : Session) :
    ∃ t, (reportAny p).run s = (.ok (), t) ∧ s.Reported t p.toList := by
  cases p with
  | none => exact ⟨s, rfl, .refl s⟩
  | some p => exact ⟨_, rfl, ⟨rfl, rfl⟩, rfl⟩

/-- What is consulted is reported, and says what is allowed. -/
theorem allowedPackages_of_consult {s : Session} {file : String} {o : RuleOptions}
    {c : Consultation} (h : consult s.files s.workingDir file o = .ok c) :
    ∃ t, (allowedPackages file o).run s = (.ok c.allowed, t) ∧ s.Reported t c.problem.toList := by
  have hconsult : (ofExcept (consult s.files s.workingDir file o)).run s = (.ok c, s) := by
    rw [h]
    rfl
  obtain ⟨u, hu, hreported⟩ := reportAny_returns c.problem s
  unfold allowedPackages
  rw [run_bind_of_ok (run_get s), run_bind_of_ok hconsult, run_bind_of_ok hu]
  exact ⟨_, rfl, ⟨hreported.same.files, hreported.same.workingDir⟩, hreported.handler⟩

theorem allowedPackages_of_fault {s : Session} {file : String} {o : RuleOptions} {f : Fault}
    (h : consult s.files s.workingDir file o = .error f) :
    (allowedPackages file o).run s = (.error f, s) := by
  unfold allowedPackages
  rw [run_bind_of_ok (run_get s), h]
  rfl

/-- Without a manifest nothing is allowed, and there is nothing to report. -/
theorem allowedPackages_of_none {s : Session} {file : String} (h : nearestTo s file = .ok none)
    (o : RuleOptions) :
    ∃ t, (allowedPackages file o).run s = (.ok [], t) ∧ s.Reported t [] := by
  have hconsult : consult s.files s.workingDir file o = .ok ⟨none, none, []⟩ := by
    unfold nearestTo at h
    unfold consult
    rw [h]
  exact allowedPackages_of_consult hconsult

/-- Where there is a manifest, what is consulted is what was loaded. -/
theorem consult_of_nearest {s : Session} {file : String} {path : Path}
    (hnear : nearestTo s file = .ok (some path)) (o : RuleOptions) :
    consult s.files s.workingDir file o =
      (load s.files s.workingDir path).map fun r => ⟨some path, r.2, r.1.allowed o⟩ := by
  unfold nearestTo at hnear
  unfold consult
  rw [hnear]
  dsimp only
  cases load s.files s.workingDir path <;> rfl

/-- A manifest that is loaded says what is allowed, and the problem with it is reported. -/
theorem allowedPackages_of_load {s : Session} {file : String} {path : Path} {m : Manifest}
    {p : Option Problem} (hnear : nearestTo s file = .ok (some path))
    (hload : load s.files s.workingDir path = .ok (m, p)) (o : RuleOptions) :
    ∃ t, (allowedPackages file o).run s = (.ok (m.allowed o), t) ∧ s.Reported t p.toList := by
  have hconsult : consult s.files s.workingDir file o = .ok ⟨some path, p, m.allowed o⟩ := by
    rw [consult_of_nearest hnear, hload]
    rfl
  exact allowedPackages_of_consult hconsult

/-- Where the manifest is not loaded, the run ends in a fault. -/
theorem allowedPackages_of_load_error {s : Session} {file : String} {path : Path} {f : Fault}
    (hnear : nearestTo s file = .ok (some path))
    (hload : load s.files s.workingDir path = .error f) (o : RuleOptions) :
    (allowedPackages file o).run s = (.error f, s) := by
  have hconsult : consult s.files s.workingDir file o = .error f := by
    rw [consult_of_nearest hnear, hload]
    rfl
  exact allowedPackages_of_fault hconsult

/-- Nothing is allowed by an empty manifest. -/
theorem allowed_empty (o : RuleOptions) : ({} : Manifest).allowed o = [] := by
  have hnone : (Section.selected o).flatMap ({} : Manifest).packagesIn = [] :=
    List.flatMap_eq_nil_iff.mpr fun _ _ => rfl
  rw [allowed, hnone]
  simp [Text.sortedSet, Text.sorted]

/-- Let a file go by a manifest whose file holds anything at all, or is no file.  Then:

* the manifest is loaded, and the packages that the file may import are found, exactly if the
  manifest does not overflow;
* to overflow it needs an integer with too many digits, or too many opening brackets;
* if it is no object and does not overflow, it has no sections, nothing is allowed, as it would be
  without a manifest, and one problem of manifests is reported;
* if it is an object, no problem is reported. -/
theorem allowedPackages_softFails {s : Session} {file : String} {path : Path}
    (hnear : nearestTo s file = .ok (some path)) (o : RuleOptions) :
    ((∃ loaded, load s.files s.workingDir path = .ok loaded) ↔ ¬Overflows (held s path)) ∧
    ((∃ names t, (allowedPackages file o).run s = (.ok names, t)) ↔ ¬Overflows (held s path)) ∧
    (Overflows (held s path) → ∃ text, textOf? (held s path) = some text ∧
      ((∃ digits, digits <:+: text ∧ (∀ d ∈ digits, d.isDigit = true) ∧
          Json.maxDigits < digits.length) ∨
        Json.maxDepth < text.countP Json.opens)) ∧
    (objectOf? (held s path) = none → ¬Overflows (held s path) →
      ∃ p t, p.category = .manifest ∧ load s.files s.workingDir path = .ok ({}, some p) ∧
        (allowedPackages file o).run s = (.ok [], t) ∧ s.Reported t [p] ∧
        ∀ u : Session, nearestTo u file = .ok none →
          ∃ v, (allowedPackages file o).run u = (.ok [], v) ∧ u.Reported v []) ∧
    (∀ members, objectOf? (held s path) = some members →
      ∃ t, load s.files s.workingDir path = .ok (ofMembers members, none) ∧
        (allowedPackages file o).run s = (.ok ((ofMembers members).allowed o), t) ∧
        s.Reported t []) := by
  rcases load_cases s path with
    ⟨members, hobject, hload⟩ | ⟨hobject, hin, p, hp, hload⟩ | ⟨hover, f, hload⟩
  · have hin : ¬Overflows (held s path) := fun hover => by
      rw [objectOf?_of_overflows hover] at hobject
      cases hobject
    obtain ⟨t, hrun, hreported⟩ := allowedPackages_of_load hnear hload o
    refine ⟨⟨fun _ => hin, fun _ => ⟨_, hload⟩⟩, ⟨fun _ => hin, fun _ => ⟨_, t, hrun⟩⟩,
      exists_of_overflows, fun hnone => ?_, fun members' hmembers => ?_⟩
    · rw [hnone] at hobject
      cases hobject
    · rw [hobject] at hmembers
      cases hmembers
      exact ⟨t, hload, hrun, hreported⟩
  · obtain ⟨t, hrun, hreported⟩ := allowedPackages_of_load hnear hload o
    rw [allowed_empty] at hrun
    refine ⟨⟨fun _ => hin, fun _ => ⟨_, hload⟩⟩, ⟨fun _ => hin, fun _ => ⟨_, t, hrun⟩⟩,
      exists_of_overflows, fun _ _ => ?_, fun members hmembers => ?_⟩
    · exact ⟨p, t, hp, hload, hrun, hreported, fun u hu => allowedPackages_of_none hu o⟩
    · rw [hobject] at hmembers
      cases hmembers
  · have hrun := allowedPackages_of_load_error hnear hload o
    refine ⟨⟨?_, fun hin => absurd hover hin⟩, ⟨?_, fun hin => absurd hover hin⟩,
      exists_of_overflows, fun _ hin => absurd hover hin, fun members hmembers => ?_⟩
    · rintro ⟨loaded, hloaded⟩
      rw [hload] at hloaded
      cases hloaded
    · rintro ⟨names, t, ht⟩
      rw [hrun] at ht
      cases ht
    · rw [objectOf?_of_overflows hover] at hmembers
      cases hmembers

/-! ## Manifests that are of no use -/

/-- A session in which the manifest at the root holds a text. -/
def withManifest (text : String) : Session where
  clock := ⟨"", ""⟩
  files := ⟨[(["package.json"], .file (Text.Utf8.encode text))]⟩

theorem nearestTo_withManifest (text : String) :
    nearestTo (withManifest text) "a.js" = .ok (some ⟨"/", ["package.json"]⟩) := by
  have hstart : (Files.Tree.absolute [] "a.js").parent.toString = "/" := by decide +kernel
  have hcandidates : (Files.Tree.absolute [] "/").ancestors.map (·.child fileName) =
      [⟨"/", ["package.json"]⟩] := by decide +kernel
  unfold nearestTo nearest
  change (withManifest text).files.firstPresent [] ((Files.Tree.absolute []
    (Files.Tree.absolute [] "a.js").parent.toString).ancestors.map (·.child fileName)) = _
  rw [hstart, hcandidates]
  rfl

theorem textOf?_withManifest {text : String} (hlines : '\r' ∉ text.toList)
    (hmark : text.toList.head? ≠ some byteOrderMark) :
    textOf? (held (withManifest text) ⟨"/", ["package.json"]⟩) = some text.toList :=
  textOf?_encode hlines hmark

/-- A manifest that breaks off is reported, and allows nothing. -/
theorem allowedPackages_brokenOff :
    nearestTo (withManifest "\x7b") "a.js" = .ok (some ⟨"/", ["package.json"]⟩) ∧
      ∃ p t, p.category = .manifest ∧
        load (withManifest "\x7b").files [] ⟨"/", ["package.json"]⟩ = .ok ({}, some p) ∧
        (allowedPackages "a.js" {}).run (withManifest "\x7b") = (.ok [], t) ∧
        t.handler.problems = [p] := by
  have hnear := nearestTo_withManifest "\x7b"
  have htext : textOf? (held (withManifest "\x7b") ⟨"/", ["package.json"]⟩) = some ['{'] :=
    textOf?_withManifest (by decide) (by decide)
  have hread : Json.read ['{'] = .error (.malformed .expectingName []) := rfl
  have hobject : objectOf? (held (withManifest "\x7b") ⟨"/", ["package.json"]⟩) = none := by
    rw [Option.eq_none_iff_forall_ne_some]
    intro members hmembers
    rw [objectOf?_eq_some_iff htext, hread] at hmembers
    cases hmembers
  have hin : ¬Overflows (held (withManifest "\x7b") ⟨"/", ["package.json"]⟩) := by
    rw [overflows_iff htext, hread]
    rintro ⟨fault, hfault, hbeyond⟩
    cases hfault
    exact hbeyond _ _ rfl
  obtain ⟨-, -, -, huseless, -⟩ := allowedPackages_softFails hnear {}
  obtain ⟨p, t, hp, hload, hrun, hreported, -⟩ := huseless hobject hin
  exact ⟨hnear, p, t, hp, hload, hrun, hreported.drop_problems⟩

theorem notMem_longNumber (digits : Nat) : '\r' ∉ Json.longNumber digits := by
  simp [Json.longNumber]

/-- A manifest that is an object, but has an integer of 4301 digits in it, is not loaded, and the
packages that a file may import are not found. -/
theorem allowedPackages_longNumber :
    ∃ f, nearestTo (withManifest (String.ofList (Json.longNumber 4301))) "a.js" =
        .ok (some ⟨"/", ["package.json"]⟩) ∧
      load (withManifest (String.ofList (Json.longNumber 4301))).files []
        ⟨"/", ["package.json"]⟩ = .error f ∧
      (allowedPackages "a.js" {}).run (withManifest (String.ofList (Json.longNumber 4301))) =
        (.error f, withManifest (String.ofList (Json.longNumber 4301))) := by
  have hnear := nearestTo_withManifest (String.ofList (Json.longNumber 4301))
  have hread : Json.read (Json.longNumber 4301) = .error (.longInteger 4301) :=
    Json.read_longNumber (by decide)
  have htext : textOf? (held (withManifest (String.ofList (Json.longNumber 4301)))
      ⟨"/", ["package.json"]⟩) = some (Json.longNumber 4301) := by
    rw [textOf?_withManifest ?_ ?_, String.toList_ofList]
    · rw [String.toList_ofList]
      exact notMem_longNumber 4301
    · rw [String.toList_ofList]
      exact Option.some_inj.not.mpr (by decide)
  have hover : Overflows (held (withManifest (String.ofList (Json.longNumber 4301)))
      ⟨"/", ["package.json"]⟩) := by
    rw [overflows_iff htext]
    exact ⟨_, hread, nofun⟩
  rcases load_cases (withManifest (String.ofList (Json.longNumber 4301)))
    ⟨"/", ["package.json"]⟩ with ⟨members, hobject, -⟩ | ⟨-, hin, -⟩ | ⟨-, f, hload⟩
  · rw [objectOf?_of_overflows hover] at hobject
    cases hobject
  · exact absurd hover hin
  · exact ⟨f, hnear, hload, allowedPackages_of_load_error hnear hload {}⟩

end Run

end ImportAudit
