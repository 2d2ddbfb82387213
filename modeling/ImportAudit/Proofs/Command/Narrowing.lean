/-
# ImportAudit.Proofs.Command.Narrowing — command lines that leave less to be found.

An option more on a command line, `--ignore` with a package or `--optional`, is read as it is wherever
options can stand (`read_ignore`, `read_optional`), and what it asks for is merged with the settings
(`RuleSettings.merged_ignore`, `RuleSettings.merged_optional`).  So a check that is asked for so much
more goes by narrower options and by nothing else, and it comes to the same result but for findings
that are left out (`CheckRequest.ComesTo.narrows`).  In what order packages are ignored, and how
often, makes no difference (`check_sameIgnored`).
-/
import ImportAudit.Proofs.Command.Insertion
import ImportAudit.Proofs.Command.Status
import ImportAudit.Proofs.Session.Narrowing
import ImportAudit.Proofs.Session.Precedence

namespace ImportAudit

/-! ## Flags and settings -/

namespace RuleSettings

variable {s : RuleSettings} {flags o : RuleOptions}

/-- The packages that are ignored are those of the section, and then those of the flags. -/
theorem merged_ignore (h : s.merged flags = .ok o) :
    ∃ names, o.ignore = names ++ flags.ignore ∧
      ∀ more, s.merged { flags with ignore := more } = .ok { o with ignore := names ++ more } := by
  obtain ⟨ignored, hitems, hdev, hoptional, hignore⟩ := merged_eq_ok_iff.mp h
  obtain ⟨names, given, hnames, rfl, hgiven⟩ := List.map_eq_append_iff.mp hignore.symm
  have htext : Function.Injective Value.text := fun _ _ heq => Value.text.inj heq
  rw [List.map_injective_iff.mpr htext hgiven] at hnames
  refine ⟨names, hnames, fun more => ?_⟩
  refine merged_eq_ok_iff.mpr ⟨_, hitems, hdev, hoptional, ?_⟩
  exact List.map_append.symm

/-- A flag for optional packages outranks the section. -/
theorem merged_optional (h : s.merged flags = .ok o) :
    s.merged { flags with optional := true } = .ok { o with optional := true } := by
  obtain ⟨ignored, hitems, hdev, -, hignore⟩ := merged_eq_ok_iff.mp h
  exact merged_eq_ok_iff.mpr ⟨ignored, hitems, hdev, if_pos rfl, hignore⟩

end RuleSettings

namespace Command

open Run (run_bind_of_ok)

variable {s t u v : Session} {status : Nat} {r : CheckRequest} {b : Basis} {a a' : Arguments}
  {result : CheckResult}

/-! ## Options of the check -/

/-- The option that ignores a package. -/
def ignoreSwitch : Switch where
  name := "--ignore"
  letter := some 'i'
  use := some .anything
  help := "Package name to never report (repeatable)"

/-- The option that asks for optional packages. -/
def optionalSwitch : Switch where
  name := "--optional"
  help := "Also accept packages listed in optionalDependencies"

theorem nodup_names : (checkShape.allSwitches.map Switch.name).Nodup := by decide

/-- Wherever options can stand, a package to ignore can be named. -/
theorem read_ignore {front back : List String}
    (hfront : takesOptions checkShape.allSwitches none front = true)
    (h : checkShape.read s.files s.workingDir (front ++ back) = .ok (some a)) (package : String) :
    ∃ a', checkShape.read s.files s.workingDir (front ++ ("--ignore" :: package :: back)) =
        .ok (some a') ∧ a.Inserts a' ignoreSwitch package := by
  refine Shape.read_insert ["--ignore", package] rfl nodup_names (by decide)
    (fun _ => rfl) (fun _ _ => rfl) (by decide) hfront ?_ h
  intro c
  have hword : readWord checkShape.allSwitches "--ignore".toList =
      .ok ([], some (ignoreSwitch, "--ignore")) := by decide
  have hoption : isOption "--ignore".toList = true := by decide
  have hdashes : "--ignore" ≠ "--" := by decide
  rw [List.cons_append, readWords, if_neg hdashes, if_pos hoption, hword]
  dsimp only
  rw [List.append_nil]
  rfl

/-- Wherever options can stand, optional packages can be asked for. -/
theorem read_optional {front back : List String}
    (hfront : takesOptions checkShape.allSwitches none front = true)
    (h : checkShape.read s.files s.workingDir (front ++ back) = .ok (some a)) :
    ∃ a', checkShape.read s.files s.workingDir (front ++ ("--optional" :: back)) =
        .ok (some a') ∧ a.Inserts a' optionalSwitch "" :=
  Shape.read_insert_flag (w := optionalSwitch) rfl nodup_names (by decide) rfl (by decide)
    (by decide) (by decide) (by decide) hfront h

/-- A package more to ignore is all that the request asks for besides. -/
theorem ofArguments_ignore {package : String} (h : a.Inserts a' ignoreSwitch package) :
    CheckRequest.ofArguments a' =
      { CheckRequest.ofArguments a with
        flags := { (CheckRequest.ofArguments a).flags with ignore := a'.texts "--ignore" } } := by
  have hhas : ∀ name, name ≠ "--ignore" → a'.has name = a.has name :=
    fun name hname => h.has_of_ne hname.symm
  have htext : ∀ name, name ≠ "--ignore" → a'.text? name = a.text? name :=
    fun name hname => h.text?_of_ne hname.symm
  unfold CheckRequest.ofArguments
  rw [h.rest, hhas "--dev" (by decide), hhas "--optional" (by decide), htext "--config" (by decide),
    htext "--output-format" (by decide), htext "--output-file" (by decide),
    hhas "--quiet" (by decide), hhas "--verbose" (by decide), hhas "--no-fail" (by decide)]

/-- That optional packages are asked for is all that the request asks for besides. -/
theorem ofArguments_optional (h : a.Inserts a' optionalSwitch "") :
    CheckRequest.ofArguments a' =
      { CheckRequest.ofArguments a with
        flags := { (CheckRequest.ofArguments a).flags with optional := true } } := by
  have hhas : ∀ name, name ≠ "--optional" → a'.has name = a.has name :=
    fun name hname => h.has_of_ne hname.symm
  have htext : ∀ name, name ≠ "--optional" → a'.text? name = a.text? name :=
    fun name hname => h.text?_of_ne hname.symm
  have hoptional : a'.has "--optional" = true := by
    rw [h.has]
    exact Bool.true_or _
  have htexts : a'.texts "--ignore" = a.texts "--ignore" := h.texts_of_ne (by decide)
  unfold CheckRequest.ofArguments
  rw [h.rest, hhas "--dev" (by decide), hoptional, htexts, htext "--config" (by decide),
    htext "--output-format" (by decide), htext "--output-file" (by decide),
    hhas "--quiet" (by decide), hhas "--verbose" (by decide), hhas "--no-fail" (by decide)]

/-! ## Two checks -/

/-- Other flags that can be merged make other options, and change nothing else of what a check goes
by. -/
theorem run_basisOf_flags {flags o : RuleOptions} (hbasis : (basisOf r).run s = (.ok b, u))
    (hmerged : b.settings.rule.merged flags = .ok o) :
    (basisOf { r with flags := flags }).run s = (.ok { b with options := o }, u) := by
  obtain ⟨t, hload, hloggers, -, hformat⟩ := run_basisOf_eq_ok_iff.mp hbasis
  exact run_basisOf_eq_ok_iff.mpr ⟨t, hload, hloggers, hmerged, hformat⟩

theorem misusesFile_flags (r : CheckRequest) (b : Basis) (flags o : RuleOptions) :
    CheckRequest.misusesFile { r with flags := flags } { b with options := o } =
      r.misusesFile b := rfl

/-- A check by narrower options comes to the same result, but for findings that are left out. -/
theorem CheckRequest.ComesTo.narrows {flags : RuleOptions} {keep : String → String → Bool}
    (h : r.ComesTo s result)
    (hnarrows : ∀ b u, (basisOf r).run s = (.ok b, u) →
      ∃ o, b.settings.rule.merged flags = .ok o ∧ b.options.Narrows s keep o) :
    CheckRequest.ComesTo { r with flags := flags } s
      (result.keeping fun f => keep f.fileName f.package) := by
  obtain ⟨b, u, files, v, hbasis, hfile, hfiles, hne, hresult⟩ := h
  obtain ⟨o, hmerged, hnarrow⟩ := hnarrows b u hbasis
  have hbasis' := run_basisOf_flags hbasis hmerged
  obtain ⟨hsettles, rfl⟩ := (check_eq_ok_gathered hbasis).mp ⟨v, hresult⟩
  have hsettles' : ∀ p ∈ files, Run.settles { options := o } s p = true := by
    intro p hp
    rw [Run.settles_narrows hnarrow]
    exact hsettles p hp
  have hfile' : CheckRequest.misusesFile { r with flags := flags } { b with options := o } =
      false := by
    rw [misusesFile_flags, hfile]
  rw [← Run.gathered_narrows hnarrow]
  obtain ⟨v', hresult'⟩ := (check_eq_ok_gathered hbasis').mpr ⟨hsettles', rfl⟩
  exact ⟨_, u, files, v', hbasis', hfile', hfiles, hne, hresult'⟩

/-- Where there is nothing to check, flags make no difference. -/
theorem check_of_nothing {flags o : RuleOptions} (hbasis : (basisOf r).run s = (.ok b, u))
    (hmerged : b.settings.rule.merged flags = .ok o)
    (hfiles : (filesOf r.paths b.settings.discovery).run s = (.ok [], s)) :
    (check { r with flags := flags }).run s = (check r).run s := by
  have hbasis' := run_basisOf_flags hbasis hmerged
  have hfound := (run_filesOf_iff hbasis).mpr ⟨rfl, hfiles⟩
  have hnothing : checkFound { r with flags := flags } { b with options := o } [] =
      checkFound r b [] := rfl
  rw [check_eq, check_eq, run_bind_of_ok hbasis, run_bind_of_ok hbasis']
  unfold proceed
  rw [misusesFile_flags]
  split
  · rfl
  · rw [run_bind_of_ok hfound, run_bind_of_ok hfound, hnothing]

/-- In what order packages are ignored, and how often, makes no difference to a check. -/
theorem check_sameIgnored {names : List String} (hbasis : (basisOf r).run s = (.ok b, u))
    (h : ∀ package, package ∈ names ↔ package ∈ r.flags.ignore) :
    (check { r with flags := { r.flags with ignore := names } }).run s = (check r).run s := by
  obtain ⟨-, -, -, hoptions, -⟩ := run_basisOf_eq_ok_iff.mp hbasis
  obtain ⟨ignored, hignore, hmerged⟩ := RuleSettings.merged_ignore hoptions
  have hbasis' := run_basisOf_flags hbasis (hmerged names)
  -- what the settings ignore stays in front of either list
  have hsame : b.options.SameRule { b.options with ignore := ignored ++ names } := by
    refine ⟨rfl, rfl, fun package => ?_⟩
    dsimp only
    rw [hignore, List.mem_append, List.mem_append, h]
  rw [check_eq, check_eq, run_bind_of_ok hbasis, run_bind_of_ok hbasis']
  unfold proceed checkFound checkFiles
  simp only [Run.check_sameRule hsame]
  rfl

/-- The requests ask for the same, and for the same packages to be ignored. -/
structure CheckRequest.IgnoresSame (r r' : CheckRequest) : Prop where
  ignore : ∀ package, package ∈ r'.flags.ignore ↔ package ∈ r.flags.ignore
  others : r' = { r with flags := { r.flags with ignore := r'.flags.ignore } }

/-! ## Two command lines -/

/-- Of two command lines that are read, the second leaves out the findings that are not kept.  Where
the first comes to a result, it comes to that result without them, and tells it in the same way; if
results are printed as JSON, these are the results that are printed.  Where there is nothing to
check, both do the same. -/
structure LeavesOut (s : Session) (words words' : List String) (a a' : Arguments)
    (keep : Finding → Bool) : Prop where
  read : checkShape.read s.files s.workingDir words' = .ok (some a')
  result : ∀ result, (CheckRequest.ofArguments a).ComesTo s result →
    (CheckRequest.ofArguments a').ComesTo s (result.keeping keep)
  told : ∀ b u result, (basisOf (.ofArguments a)).run s = (.ok b, u) →
    (CheckRequest.ofArguments a).ComesTo s result →
    ∃ t t', t.output = s.output ∧ t'.output = s.output ∧
      (check (.ofArguments a)).run s = (tell (.ofArguments a) b result).run t ∧
      (check (.ofArguments a')).run s = (tell (.ofArguments a) b (result.keeping keep)).run t'
  printed : ∀ b u result, (basisOf (.ofArguments a)).run s = (.ok b, u) →
    (CheckRequest.ofArguments a).PrintsJson b.settings.output →
    (CheckRequest.ofArguments a).ComesTo s result →
    ∃ status v status' v', (run ("check" :: words)).run s = (.ok status, v) ∧
      v.output = s.output ++ result.toJson ++ "\n" ∧
      (run ("check" :: words')).run s = (.ok status', v') ∧
      v'.output = s.output ++ (result.keeping keep).toJson ++ "\n"
  nothing : ∀ b u, (basisOf (.ofArguments a)).run s = (.ok b, u) →
    (filesOf (CheckRequest.ofArguments a).paths b.settings.discovery).run s = (.ok [], s) →
    (run ("check" :: words')).run s = (run ("check" :: words)).run s

variable {words words' : List String}

theorem run_check_congr (hread : checkShape.read s.files s.workingDir words = .ok (some a))
    (hread' : checkShape.read s.files s.workingDir words' = .ok (some a'))
    (h : (check (.ofArguments a')).run s = (check (.ofArguments a)).run s) :
    (run ("check" :: words')).run s = (run ("check" :: words)).run s := by
  rw [run_check_of_read hread, run_check_of_read hread', h]

/-- Where JSON is printed, the result that a command line comes to is. -/
theorem run_check_printsJson (hread : checkShape.read s.files s.workingDir words = .ok (some a))
    (hcomes : (CheckRequest.ofArguments a).ComesTo s result)
    (hbasis : (basisOf (.ofArguments a)).run s = (.ok b, u))
    (hjson : (CheckRequest.ofArguments a).PrintsJson b.settings.output) :
    ∃ status v, (run ("check" :: words)).run s = (.ok status, v) ∧
      v.output = s.output ++ result.toJson ++ "\n" := by
  obtain ⟨v, hcheck, houtput⟩ := hcomes.printsJson hbasis hjson
  have hrun := run_check_of_read hread
  rw [hcheck] at hrun
  exact ⟨_, v, hrun, houtput⟩

/-- A command line that differs in its flags leaves findings out if they narrow the options. -/
theorem leavesOut_of_flags {flags : RuleOptions} (keep : String → String → Bool)
    (hread : checkShape.read s.files s.workingDir words = .ok (some a))
    (hread' : checkShape.read s.files s.workingDir words' = .ok (some a'))
    (hrequest : CheckRequest.ofArguments a' = { CheckRequest.ofArguments a with flags := flags })
    (hnarrows : ∀ b u, (basisOf (.ofArguments a)).run s = (.ok b, u) →
      ∃ o, b.settings.rule.merged flags = .ok o ∧ b.options.Narrows s keep o) :
    LeavesOut s words words' a a' fun f => keep f.fileName f.package := by
  have hcomes : ∀ result, (CheckRequest.ofArguments a).ComesTo s result →
      (CheckRequest.ofArguments a').ComesTo s
        (result.keeping fun f => keep f.fileName f.package) := by
    intro result h
    rw [hrequest]
    exact h.narrows hnarrows
  have hbasis' : ∀ b u, (basisOf (.ofArguments a)).run s = (.ok b, u) →
      ∃ o, (basisOf (.ofArguments a')).run s = (.ok { b with options := o }, u) := by
    intro b u hbasis
    obtain ⟨o, hmerged, -⟩ := hnarrows b u hbasis
    rw [hrequest]
    exact ⟨o, run_basisOf_flags hbasis hmerged⟩
  refine ⟨hread', hcomes, ?_, ?_, ?_⟩
  · intro b u result hbasis hresult
    obtain ⟨o, hbasis'⟩ := hbasis' b u hbasis
    obtain ⟨t, hcheck, houtput⟩ := hresult.exists_tell hbasis
    obtain ⟨t', hcheck', houtput'⟩ := (hcomes result hresult).exists_tell hbasis'
    refine ⟨t, t', houtput, houtput', hcheck, hcheck'.trans ?_⟩
    rw [hrequest]
    rfl
  · intro b u result hbasis hjson hresult
    obtain ⟨o, hbasis'⟩ := hbasis' b u hbasis
    have hjson' : (CheckRequest.ofArguments a').PrintsJson b.settings.output := by
      rw [hrequest]
      exact ⟨hjson.format, hjson.noFile⟩
    obtain ⟨status, v, hrun, houtput⟩ := run_check_printsJson hread hresult hbasis hjson
    obtain ⟨status', v', hrun', houtput'⟩ :=
      run_check_printsJson hread' (hcomes result hresult) hbasis' hjson'
    exact ⟨status, v, status', v', hrun, houtput, hrun', houtput'⟩
  · intro b u hbasis hfiles
    obtain ⟨o, hmerged, -⟩ := hnarrows b u hbasis
    refine run_check_congr hread hread' ?_
    rw [hrequest]
    exact check_of_nothing hbasis hmerged hfiles

theorem leavesOut_of_ignore {package : String}
    (hread : checkShape.read s.files s.workingDir words = .ok (some a))
    (hread' : checkShape.read s.files s.workingDir words' = .ok (some a'))
    (h : a.Inserts a' ignoreSwitch package) :
    LeavesOut s words words' a a' fun f => f.package ≠ package := by
  refine leavesOut_of_flags (fun _ other => other ≠ package) hread hread' (ofArguments_ignore h) ?_
  intro b u hbasis
  obtain ⟨-, -, -, hoptions, -⟩ := run_basisOf_eq_ok_iff.mp hbasis
  obtain ⟨names, hignore, hmerged⟩ := RuleSettings.merged_ignore hoptions
  refine ⟨_, hmerged _, RuleOptions.narrows_of_ignore rfl rfl fun other => ?_⟩
  have hmem : other ∈ a'.texts "--ignore" ↔ other = package ∨ other ∈ a.texts "--ignore" :=
    h.mem_texts other
  rw [List.mem_append, hignore, List.mem_append, hmem]
  exact or_left_comm

theorem leavesOut_of_optional
    (hread : checkShape.read s.files s.workingDir words = .ok (some a))
    (hread' : checkShape.read s.files s.workingDir words' = .ok (some a'))
    (h : a.Inserts a' optionalSwitch "") :
    LeavesOut s words words' a a' fun f => f.package ∉ Manifest.optionalOf s f.fileName := by
  refine leavesOut_of_flags (fun file package => package ∉ Manifest.optionalOf s file) hread hread'
    (ofArguments_optional h) ?_
  intro b u hbasis
  obtain ⟨-, -, -, hoptions, -⟩ := run_basisOf_eq_ok_iff.mp hbasis
  exact ⟨_, RuleSettings.merged_optional hoptions, RuleOptions.narrows_of_optional s b.options⟩

/-- Let a command line be read, let the check not refuse it, and let the program end with a status.
There is nothing to check, or the check comes to a result.  Wherever options can stand,

* `--ignore` with a package may be put in; that leaves out the findings of this package;
* `--optional` may be put in; that leaves out the findings of packages which the closest manifest of
  their file has for optional ones.

All else of the result is as it was.  A command line that asks for the same, and for the same
packages to be ignored, does the same. -/
theorem run_check_narrowed (hread : checkShape.read s.files s.workingDir words = .ok (some a))
    (hpast : ∀ message, ((check (.ofArguments a)).run s).1 ≠ .error (.usage message))
    (hrun : (run ("check" :: words)).run s = (.ok status, v)) :
    ((∃ b u, (basisOf (.ofArguments a)).run s = (.ok b, u) ∧
        (filesOf (CheckRequest.ofArguments a).paths b.settings.discovery).run s = (.ok [], s)) ∨
      ∃ result, (CheckRequest.ofArguments a).ComesTo s result) ∧
    (∀ front back, words = front ++ back →
      takesOptions checkShape.allSwitches none front = true →
        (∀ package, ∃ a', LeavesOut s words (front ++ "--ignore" :: package :: back) a a'
          fun f => f.package ≠ package) ∧
        ∃ a', LeavesOut s words (front ++ "--optional" :: back) a a'
          fun f => f.package ∉ Manifest.optionalOf s f.fileName) ∧
    ∀ words' a', checkShape.read s.files s.workingDir words' = .ok (some a') →
      (CheckRequest.ofArguments a).IgnoresSame (.ofArguments a') →
      (run ("check" :: words')).run s = (run ("check" :: words)).run s := by
  have hasked := run_check words s
  have hcheck := check_of_runCheck hread hpast (hasked ▸ hrun)
  refine ⟨nothing_or_comesTo hcheck, ?_, ?_⟩
  · rintro front back rfl hfront
    constructor
    · intro package
      obtain ⟨a', hread', hinserts⟩ := read_ignore hfront hread package
      exact ⟨a', leavesOut_of_ignore hread hread' hinserts⟩
    · obtain ⟨a', hread', hinserts⟩ := read_optional hfront hread
      exact ⟨a', leavesOut_of_optional hread hread' hinserts⟩
  · intro words' a' hread' hsame
    refine run_check_congr hread hread' ?_
    rw [check_eq] at hcheck
    obtain ⟨b, u, hbasis, -⟩ := Run.run_bind_eq_ok_iff.mp hcheck
    rw [hsame.others]
    exact check_sameIgnored hbasis hsame.ignore

/-- A session with a source file that imports `x` and `o`, the second of which is optional. -/
def withOptional : Session where
  clock := ⟨"", ""⟩
  files := ⟨[(["a.js"], .file (Text.Utf8.encode "import 'x'; import 'o'")),
    (["package.json"],
      .file (Text.Utf8.encode "\x7b\"optionalDependencies\": \x7b\"o\": \"1\"\x7d\x7d"))]⟩

/-- Both packages are found.  With `--ignore x` behind the path the first one is left out, and with
`--optional` the other. -/
theorem run_check_narrowed_withOptional :
    ∃ result a₁ a₂,
      (CheckRequest.ofArguments (jsonArguments "a.js")).ComesTo withOptional result ∧
      result.findings.map Finding.package = ["x", "o"] ∧
      LeavesOut withOptional (jsonWords "a.js") ["a.js", "--ignore", "x", "--output-format", "json"]
        (jsonArguments "a.js") a₁ (fun f => f.package ≠ "x") ∧
      LeavesOut withOptional (jsonWords "a.js") ["a.js", "--optional", "--output-format", "json"]
        (jsonArguments "a.js") a₂ (fun f => f.package ∉ Manifest.optionalOf withOptional f.fileName) ∧
      (result.keeping fun f => f.package ≠ "x").findings.map Finding.package = ["o"] ∧
      (result.keeping fun f =>
        f.package ∉ Manifest.optionalOf withOptional f.fileName).findings.map Finding.package =
          ["x"] := by
  have hread : checkShape.read withOptional.files withOptional.workingDir (jsonWords "a.js") =
      .ok (some (jsonArguments "a.js")) := rfl
  have hends : Run.endsIn (check (.ofArguments (jsonArguments "a.js"))) withOptional
      (fun _ _ => true) = true := by decide +kernel
  have hready : isReady withOptional "a.js" [⟨"", ["a.js"]⟩] = true := by decide +kernel
  obtain ⟨status, v, hcheck, -⟩ := Run.exists_of_endsIn hends
  have hrun := run_check_of_read hread
  rw [hcheck] at hrun
  obtain ⟨hcomes, hinsert, -⟩ := run_check_narrowed hread (isPast_of_endsIn hends) hrun
  obtain ⟨hignore, a₂, hoptional⟩ :=
    hinsert ["a.js"] ["--output-format", "json"] rfl (by decide +kernel)
  obtain ⟨a₁, hignore⟩ := hignore "x"
  obtain ⟨b, u, hbasis, -, hoptions, hfiles⟩ := exists_of_isReady hready
  rcases hcomes with ⟨b', u', hbasis', hnone⟩ | ⟨result, hresult⟩
  · -- there is a file to check
    rw [hbasis] at hbasis'
    cases hbasis'
    have hboth := hfiles.symm.trans hnone
    cases hboth
  · obtain ⟨b', u', files, w, hbasis', -, hfiles', -, hfound⟩ := id hresult
    rw [hbasis] at hbasis'
    cases hbasis'
    have hboth := hfiles.symm.trans hfiles'
    cases hboth
    obtain ⟨-, hgathered⟩ := (check_eq_ok_gathered hbasis).mp ⟨w, hfound⟩
    rw [hoptions] at hgathered
    have hfindings : result.findings.map (fun f => (f.fileName, f.package)) =
        [("a.js", "x"), ("a.js", "o")] := by
      rw [hgathered]
      decide +kernel
    have hkept : ∀ keep : String → String → Bool,
        (result.keeping fun f => keep f.fileName f.package).findings.map Finding.package =
          ([("a.js", "x"), ("a.js", "o")].filter fun e => keep e.1 e.2).map Prod.snd := by
      intro keep
      rw [← hfindings, List.filter_map, List.map_map]
      rfl
    have hall : result.findings.map Finding.package =
        [("a.js", "x"), ("a.js", "o")].map Prod.snd := by
      rw [← hfindings, List.map_map]
      rfl
    have hothers := hkept fun _ package => package ≠ "x"
    have hneeded := hkept fun file package => package ∉ Manifest.optionalOf withOptional file
    refine ⟨result, a₁, a₂, hresult, hall, hignore, hoptional, hothers.trans ?_, hneeded.trans ?_⟩
    · rfl
    · decide +kernel

end Command

end ImportAudit
