/-
# ImportAudit.Proofs.Command.Status — the status that a check ends with.

A file that cannot be used is refused before anything is looked for.  Otherwise the status goes by
the files: there are none, or one of them cannot be checked, or something is found, or nothing.  A
file that can be read is not checked if its manifest has a number in it that is too long
(`IsLost`), and nothing else keeps one from it (`failure_iff`).  All this is a matter of the files,
the settings and the flags, so in whatever way results are told, the status is the same
(`run_check_status`).
-/
import ImportAudit.Proofs.Command.Refusals

namespace ImportAudit

/-! ## Files -/

/-- The file of a path cannot be read. -/
def IsUnreadable (s : Session) (p : Path) : Prop :=
  ∃ f, SourceFile.load s.files s.workingDir p = .error f

/-- The file of a path can be read and refers to a package that is not built in, and the manifest
that it goes by is beyond the bounds of the reader. -/
def IsLost (s : Session) (p : Path) : Prop :=
  ∃ file path, SourceFile.load s.files s.workingDir p = .ok file ∧
    file.allReferences.any Reference.isExternal = true ∧
    Manifest.nearestTo s file.fileName = .ok (some path) ∧
    Manifest.Overflows (Manifest.held s path)

/-- The file of a path can be read, and refers to a package that its manifest does not declare. -/
def HasFinding (o : RuleOptions) (s : Session) (p : Path) : Prop :=
  ∃ file m problem, SourceFile.load s.files s.workingDir p = .ok file ∧
    Manifest.ofFile s file.fileName = .ok (m, problem) ∧ file.undeclared o (m.allowed o) ≠ []

namespace Run

variable {o : RuleOptions} {s : Session} {p : Path}

/-- What has to be declared is not built in. -/
theorem any_isExternal_of_undeclared {file : SourceFile} {names : List String}
    (h : file.undeclared o names ≠ []) : file.allReferences.any Reference.isExternal = true := by
  obtain ⟨r, hr⟩ := List.exists_mem_of_ne_nil _ h
  obtain ⟨hmem, hundeclared⟩ := List.mem_filter.mp hr
  rw [List.any_eq_true]
  refine ⟨r, hmem, ?_⟩
  unfold Reference.isUndeclared at hundeclared
  unfold Reference.isExternal
  split at hundeclared
  · cases hundeclared
  · cases hundeclared
  · next heq => rw [heq]

theorem isOfValue_of_settles {f : Fault} (h : settles { options := o } s p = true)
    (hf : (singly o s p).1 = .error f) : f.isOfValue = true := by
  unfold settles at h
  rw [alone_eq_singly, hf] at h
  exact h

theorem settles_of_fault {f : Fault} (hf : (singly o s p).1 = .error f)
    (h : f.isOfValue = true) : settles { options := o } s p = true := by
  unfold settles
  rw [alone_eq_singly, hf]
  exact h

/-- A file that imports something comes to nothing without its manifest. -/
theorem singly_of_manifest {file : SourceFile} {f : Fault}
    (hload : SourceFile.load s.files s.workingDir p = .ok file)
    (hany : file.allReferences.any Reference.isExternal = true)
    (hmanifest : Manifest.ofFile s file.fileName = .error f) :
    (singly o s p).1 = .error f := by
  unfold singly
  rw [hload]
  dsimp only
  unfold singlyOf
  rw [if_pos hany, hmanifest]

/-- A file that settles cannot be checked if it cannot be read, or if it is lost with its manifest,
and not for any other reason. -/
theorem failure_iff (h : settles { options := o } s p = true) :
    (∃ f, (singly o s p).1 = .error f) ↔ IsUnreadable s p ∨ IsLost s p := by
  constructor
  · rintro ⟨f, hf⟩
    have hvalue := isOfValue_of_settles h hf
    unfold singly at hf
    cases hload : SourceFile.load s.files s.workingDir p with
    | error e => exact .inl ⟨e, hload⟩
    | ok file =>
        rw [hload] at hf
        dsimp only at hf
        unfold singlyOf at hf
        split at hf
        · next hany =>
            unfold Manifest.ofFile at hf
            cases hnear : Manifest.nearestTo s file.fileName with
            | error e =>
                -- the system refuses to look for a manifest, and that is no fault of a value
                rw [hnear] at hf
                cases hf
                cases hvalue
            | ok found =>
                rw [hnear] at hf
                cases found with
                | none => cases hf
                | some path =>
                    refine .inr ⟨file, path, hload, hany, hnear, ?_⟩
                    rcases Manifest.load_cases s path with
                      ⟨members, -, hmanifest⟩ | ⟨-, -, problem, -, hmanifest⟩ | ⟨hover, -⟩
                    · dsimp only at hf
                      rw [hmanifest] at hf
                      cases hf
                    · dsimp only at hf
                      rw [hmanifest] at hf
                      cases hf
                    · exact hover
        · cases hf
  · rintro (⟨f, hload⟩ | ⟨file, path, hload, hany, hnear, hover⟩)
    · refine ⟨f, ?_⟩
      unfold singly
      rw [hload]
    · rcases Manifest.load_cases s path with ⟨members, hobject, -⟩ | ⟨-, hin, -⟩ | ⟨-, f, hmanifest⟩
      · rw [Manifest.objectOf?_of_overflows hover] at hobject
        cases hobject
      · exact absurd hover hin
      · have hofFile := Manifest.ofFile_of_nearest hnear
        rw [hmanifest] at hofFile
        exact ⟨f, singly_of_manifest hload hany hofFile⟩

/-- Something is found in a file if it has an undeclared reference. -/
theorem found_iff : foundAlone { options := o } s p ≠ [] ↔ HasFinding o s p := by
  unfold foundAlone HasFinding
  rw [alone_eq_singly]
  unfold singly
  cases SourceFile.load s.files s.workingDir p with
  | error f => simp
  | ok file =>
      dsimp only
      unfold singlyOf
      cases hany : file.allReferences.any Reference.isExternal with
      | false =>
          rw [if_neg Bool.false_ne_true]
          constructor
          · intro hne
            exact absurd rfl hne
          · rintro ⟨file', m, problem, hfile, -, hundeclared⟩
            cases hfile
            rw [any_isExternal_of_undeclared hundeclared] at hany
            cases hany
      | true =>
          rw [if_pos rfl]
          cases hmanifest : Manifest.ofFile s file.fileName with
          | error f =>
              constructor
              · intro hne
                exact absurd rfl hne
              · rintro ⟨file', m, problem, hfile, hm, -⟩
                cases hfile
                rw [hmanifest] at hm
                cases hm
          | ok loaded =>
              obtain ⟨m, problem⟩ := loaded
              dsimp only
              rw [ne_eq, List.map_eq_nil_iff]
              constructor
              · intro hne
                exact ⟨file, m, problem, rfl, hmanifest, hne⟩
              · rintro ⟨file', m', problem', hfile, hm, hundeclared⟩
                cases hfile
                rw [hmanifest] at hm
                cases hm
                exact hundeclared

/-! ## Many files -/

variable {paths : List Path}

theorem errors_gathered_iff (h : ∀ p ∈ paths, settles { options := o } s p = true) :
    (gathered { options := o } s paths).errors ≠ [] ↔
      ∃ p ∈ paths, IsUnreadable s p ∨ IsLost s p := by
  have hfailure : ∀ p, failureAlone { options := o } s p ≠ none ↔
      ∃ f, (singly o s p).1 = .error f := by
    intro p
    unfold failureAlone
    rw [alone_eq_singly]
    cases (singly o s p).1 <;> simp
  show paths.filterMap (failureAlone { options := o } s) ≠ [] ↔ _
  rw [ne_eq, List.filterMap_eq_nil_iff, not_forall]
  constructor
  · rintro ⟨p, hp⟩
    rw [Classical.not_imp] at hp
    obtain ⟨hmem, hne⟩ := hp
    exact ⟨p, hmem, (failure_iff (h p hmem)).mp ((hfailure p).mp hne)⟩
  · rintro ⟨p, hmem, hp⟩
    refine ⟨p, ?_⟩
    rw [Classical.not_imp]
    exact ⟨hmem, (hfailure p).mpr ((failure_iff (h p hmem)).mpr hp)⟩

theorem hasFindings_gathered_iff (o : RuleOptions) (s : Session) (paths : List Path) :
    (gathered { options := o } s paths).hasFindings = true ↔ ∃ p ∈ paths, HasFinding o s p := by
  show (!(paths.flatMap (foundAlone { options := o } s)).isEmpty) = true ↔ _
  rw [Bool.not_eq_true', List.isEmpty_eq_false_iff, ne_eq, List.flatMap_eq_nil_iff, not_forall]
  constructor
  · rintro ⟨p, hp⟩
    rw [Classical.not_imp] at hp
    exact ⟨p, hp.1, found_iff.mp hp.2⟩
  · rintro ⟨p, hmem, hp⟩
    refine ⟨p, ?_⟩
    rw [Classical.not_imp]
    exact ⟨hmem, found_iff.mpr hp⟩

end Run

namespace Command

open Run (run_bind_of_ok run_bind_eq_ok_iff)

variable {s t u v : Session} {status : Nat} {r : CheckRequest} {b : Basis}

/-! ## The status -/

/-- What a check says of its files with its status: one of them cannot be checked, or else
something is found that makes it fail, or neither. -/
structure Says (r : CheckRequest) (b : Basis) (s : Session) (files : List Path) (status : Nat) :
    Prop where
  unchecked : (∃ p ∈ files, IsUnreadable s p ∨ IsLost s p) → status = refused
  found : (∀ p ∈ files, ¬IsUnreadable s p ∧ ¬IsLost s p) →
    (∃ p ∈ files, HasFinding b.options s p) → b.settings.output.failOnFindings.truthy = true →
    r.noFail = false → status = failed
  passed : (∀ p ∈ files, ¬IsUnreadable s p ∧ ¬IsLost s p) →
    ¬((∃ p ∈ files, HasFinding b.options s p) ∧
      b.settings.output.failOnFindings.truthy = true ∧ r.noFail = false) → status = succeeded

theorem says_statusOf {files : List Path}
    (h : ∀ p ∈ files, Run.settles { options := b.options } s p = true) :
    Says r b s files (statusOf (r.failsWith b.settings.output)
      (Run.gathered { options := b.options } s files)) := by
  have herrors := Run.errors_gathered_iff h
  have hfindings := Run.hasFindings_gathered_iff b.options s files
  have hfails : r.failsWith b.settings.output = true ↔
      b.settings.output.failOnFindings.truthy = true ∧ r.noFail = false := by
    unfold CheckRequest.failsWith
    simp
  have hno : (∀ p ∈ files, ¬IsUnreadable s p ∧ ¬IsLost s p) →
      ¬(Run.gathered { options := b.options } s files).errors ≠ [] := by
    intro hall herr
    obtain ⟨p, hmem, hp⟩ := herrors.mp herr
    rcases hp with hp | hp
    · exact (hall p hmem).1 hp
    · exact (hall p hmem).2 hp
  unfold statusOf
  constructor
  · intro hlost
    rw [if_pos (herrors.mpr hlost)]
  · intro hall hfound hset hflag
    rw [if_neg (hno hall), if_pos]
    rw [Bool.and_eq_true]
    exact ⟨hfindings.mpr hfound, hfails.mpr ⟨hset, hflag⟩⟩
  · intro hall hneither
    rw [if_neg (hno hall), if_neg]
    rw [Bool.and_eq_true]
    rintro ⟨hfound, hfail⟩
    exact hneither ⟨hfindings.mp hfound, hfails.mp hfail⟩

/-- There is one status that a check says of its files. -/
theorem Says.unique {files : List Path} {status' : Nat} {r' : CheckRequest} {b' : Basis}
    (h : Says r b s files status) (h' : Says r' b' s files status')
    (hsettings : b'.settings = b.settings) (hoptions : b'.options = b.options)
    (hflag : r'.noFail = r.noFail) : status' = status := by
  by_cases hlost : ∃ p ∈ files, IsUnreadable s p ∨ IsLost s p
  · rw [h.unchecked hlost, h'.unchecked hlost]
  · have hall : ∀ p ∈ files, ¬IsUnreadable s p ∧ ¬IsLost s p := by
      intro p hmem
      exact ⟨fun hp => hlost ⟨p, hmem, .inl hp⟩, fun hp => hlost ⟨p, hmem, .inr hp⟩⟩
    by_cases hfound : (∃ p ∈ files, HasFinding b.options s p) ∧
        b.settings.output.failOnFindings.truthy = true ∧ r.noFail = false
    · obtain ⟨hmem, hset, hno⟩ := hfound
      rw [h.found hall hmem hset hno]
      exact h'.found hall (hoptions ▸ hmem) (hsettings ▸ hset) (hflag ▸ hno)
    · rw [h.passed hall hfound]
      refine h'.passed hall ?_
      rw [hsettings, hoptions, hflag]
      exact hfound

/-- A command line that is read is carried out by the check; if it is refused there, that is told. -/
theorem run_check_of_read {words : List String} {a : Arguments}
    (hread : checkShape.read s.files s.workingDir words = .ok (some a)) :
    (run ("check" :: words)).run s =
      match (check (.ofArguments a)).run s with
      | (.ok status, t) => (.ok status, t)
      | (.error (.usage message), t) => (refuse checkShape (.other message)).run t
      | (.error f, t) => (.error f, t) := by
  rw [run_check]
  exact run_perform (fun a => check (.ofArguments a)) hread

/-- A refusal is told of where errors go, and is a status. -/
theorem run_refuse_other (shape : Shape) (message : String) (s : Session) :
    ∃ t, (refuse shape (.other message)).run s = (.ok refused, t) ∧ t.files = s.files :=
  ⟨_, rfl, rfl⟩

/-- A check of which it is settled what it goes by ends as it goes on, unless a file cannot be used;
then it is refused at once. -/
theorem run_check_of_basis {words : List String} {a : Arguments}
    (hread : checkShape.read s.files s.workingDir words = .ok (some a))
    (hbasis : (basisOf (.ofArguments a)).run s = (.ok b, u))
    (hrun : (run ("check" :: words)).run s = (.ok status, v)) :
    ((CheckRequest.ofArguments a).misusesFile b = true ∧
      (run ("check" :: words)).run s = (refuse checkShape (.other misuseText)).run u) ∨
    ((CheckRequest.ofArguments a).misusesFile b = false ∧ ∃ files,
      (filesOf (CheckRequest.ofArguments a).paths b.settings.discovery).run s = (.ok files, s) ∧
      (checkFound (.ofArguments a) b files).run u = (.ok status, v)) := by
  have hchecked := run_check_of_read hread
  rw [check_eq, run_bind_of_ok hbasis] at hchecked
  cases hfile : (CheckRequest.ofArguments a).misusesFile b with
  | true =>
      left
      rw [proceed_of_misuses hfile] at hchecked
      exact ⟨rfl, hchecked⟩
  | false =>
      right
      refine ⟨rfl, ?_⟩
      have hother := (unrefused_filesOf (CheckRequest.ofArguments a).paths
        b.settings.discovery).bind (unrefused_checkFound (.ofArguments a) b)
      rw [proceed_of_uses hfile, hrun] at hchecked
      -- what else may go wrong is not told of in a status
      match hgo : (filesOf (CheckRequest.ofArguments a).paths b.settings.discovery >>=
          checkFound (.ofArguments a) b).run u with
      | (.error f, t) =>
          have hf := hother u f (congrArg Prod.fst hgo)
          rw [hgo] at hchecked
          cases f with
          | usage message => exact absurd rfl (hf message)
          | _ => cases hchecked
      | (.ok status', t) =>
          rw [hgo] at hchecked
          cases hchecked
          obtain ⟨files, w, hfound, hend⟩ := run_bind_eq_ok_iff.mp hgo
          obtain ⟨rfl, hfiles⟩ := (run_filesOf_iff hbasis).mp hfound
          exact ⟨files, hfiles, hend⟩

/-- A check of files that were found ends with what it says of them. -/
theorem says_of_checkFound (hbasis : (basisOf r).run s = (.ok b, u)) {files : List Path}
    (h : (checkFound r b files).run u = (.ok status, v)) :
    (files = [] → status = succeeded) ∧ (files ≠ [] → Says r b s files status) := by
  constructor
  · rintro rfl
    unfold checkFound at h
    rw [if_pos List.isEmpty_nil] at h
    cases hquiet : r.quiet with
    | true =>
        rw [hquiet] at h
        cases h
        rfl
    | false =>
        rw [hquiet] at h
        obtain ⟨_, w, -, hend⟩ := run_bind_eq_ok_iff.mp h
        cases hend
        rfl
  · intro hne
    rw [checkFound_of_ne_nil r b hne] at h
    obtain ⟨result, w, hresult, hdelivered⟩ := run_bind_eq_ok_iff.mp h
    obtain ⟨_, x, -, hend⟩ := run_bind_eq_ok_iff.mp hdelivered
    obtain ⟨hsettles, rfl⟩ := (check_eq_ok_gathered hbasis).mp ⟨w, hresult⟩
    cases hend
    exact says_statusOf hsettles

/-- The requests ask for the same, but for the format and for being quiet or verbose. -/
structure CheckRequest.TellsOtherwise (r r' : CheckRequest) : Prop where
  paths : r'.paths = r.paths
  flags : r'.flags = r.flags
  settingsFile : r'.settingsFile = r.settingsFile
  file : r'.file = r.file
  noFail : r'.noFail = r.noFail

/-- What else requests ask for is settled in the same way. -/
theorem basis_of_tellsOtherwise {r' : CheckRequest} (h : r.TellsOtherwise r')
    (hbasis : (basisOf r).run s = (.ok b, u)) {b' : Basis} {u' : Session}
    (hbasis' : (basisOf r').run s = (.ok b', u')) :
    b'.settings = b.settings ∧ b'.options = b.options := by
  obtain ⟨t, hload, -, hoptions, -⟩ := run_basisOf_eq_ok_iff.mp hbasis
  obtain ⟨t', hload', -, hoptions', -⟩ := run_basisOf_eq_ok_iff.mp hbasis'
  rw [h.settingsFile, hload] at hload'
  have hsettings : b'.settings = b.settings :=
    (Except.ok.inj (Prod.mk.inj hload').1).symm
  refine ⟨hsettings, ?_⟩
  rw [h.flags, hsettings, hoptions] at hoptions'
  exact (Except.ok.inj hoptions').symm

/-- If one of the requests is settled, the other is as well or crashes, and it is not refused. -/
theorem basis_or_crash {r' : CheckRequest} (h : r.TellsOtherwise r')
    (hbasis : (basisOf r).run s = (.ok b, u)) :
    (∃ b' u', (basisOf r').run s = (.ok b', u')) ∨
      ∃ f t, (basisOf r').run s = (.error f, t) ∧ f.IsOther := by
  obtain ⟨t, hload, -, hoptions, -⟩ := run_basisOf_eq_ok_iff.mp hbasis
  match hend : (basisOf r').run s with
  | (.ok b', u') => exact .inl ⟨b', u', rfl⟩
  | (.error f, w) =>
      refine .inr ⟨f, w, rfl, ?_⟩
      unfold basisOf at hend
      rw [h.settingsFile, h.flags, run_bind_of_ok hload] at hend
      have hoptions' : (Run.ofExcept (b.settings.rule.merged r.flags)) = pure b.options := by
        rw [hoptions]
        rfl
      have hrest : Run.Unrefused (configureLoggers r' b.settings.logging >>= fun _ =>
          Run.ofExcept (b.settings.rule.merged r.flags) >>= fun options =>
            Run.ofExcept (r'.formatWith b.settings.output) >>= fun format =>
              pure (Basis.mk b.settings options format)) := by
        refine (unrefused_configureLoggers r' _).bind fun _ => ?_
        rw [hoptions', pure_bind]
        exact (Run.unrefused_ofExcept isOther_of_formatWith).bind fun _ => Run.unrefused_pure _
      exact hrest t f (congrArg Prod.fst hend)

section

variable {words words' : List String} {a a' : Arguments} {status' : Nat} {v' : Session}
  (hread : checkShape.read s.files s.workingDir words = .ok (some a))
  (hread' : checkShape.read s.files s.workingDir words' = .ok (some a'))

include hread' in
/-- A command line that tells otherwise and ends with a status is settled as well. -/
theorem exists_basis_of_tellsOtherwise
    (h : (CheckRequest.ofArguments a).TellsOtherwise (.ofArguments a'))
    (hbasis : (basisOf (.ofArguments a)).run s = (.ok b, u))
    (hrun' : (run ("check" :: words')).run s = (.ok status', v')) :
    ∃ b' u', (basisOf (.ofArguments a')).run s = (.ok b', u') := by
  rcases basis_or_crash h hbasis with hbasis' | ⟨f, t, hcrash, hother⟩
  · exact hbasis'
  · -- a crash is no status
    have hcrashed := run_check_of_read hread'
    rw [check_eq, Run.run_bind, hcrash, hrun'] at hcrashed
    dsimp only at hcrashed
    cases f with
    | usage message => exact absurd rfl (hother message)
    | _ => cases hcrashed

include hread in
/-- Where no file is named, files are looked for. -/
theorem exists_checkFound_of_noFile (hbasis : (basisOf (.ofArguments a)).run s = (.ok b, u))
    (hfile : ((CheckRequest.ofArguments a).fileWith b.settings.output).truthy = false)
    (hrun : (run ("check" :: words)).run s = (.ok status, v)) :
    ∃ files,
      (filesOf (CheckRequest.ofArguments a).paths b.settings.discovery).run s = (.ok files, s) ∧
      (checkFound (.ofArguments a) b files).run u = (.ok status, v) := by
  rcases run_check_of_basis hread hbasis hrun with ⟨hmisuse, -⟩ | ⟨-, hends⟩
  · rw [CheckRequest.misusesFile_of_noFile hfile] at hmisuse
    cases hmisuse
  · exact hends

include hread hread' in
/-- Where no file is named, the status does not depend on how results are told. -/
theorem status_of_tellsOtherwise
    (h : (CheckRequest.ofArguments a).TellsOtherwise (.ofArguments a'))
    (hbasis : (basisOf (.ofArguments a)).run s = (.ok b, u))
    (hfile : ((CheckRequest.ofArguments a).fileWith b.settings.output).truthy = false)
    (hrun : (run ("check" :: words)).run s = (.ok status, v))
    (hrun' : (run ("check" :: words')).run s = (.ok status', v')) : status' = status := by
  obtain ⟨b', u', hbasis'⟩ := exists_basis_of_tellsOtherwise hread' h hbasis hrun'
  obtain ⟨hsettings, hoptions⟩ := basis_of_tellsOtherwise h hbasis hbasis'
  have hfile' : ((CheckRequest.ofArguments a').fileWith b'.settings.output).truthy = false := by
    unfold CheckRequest.fileWith at hfile ⊢
    rw [h.file, hsettings]
    exact hfile
  obtain ⟨files, hfiles, hfound⟩ := exists_checkFound_of_noFile hread hbasis hfile hrun
  obtain ⟨files', hfiles', hfound'⟩ := exists_checkFound_of_noFile hread' hbasis' hfile' hrun'
  rw [h.paths, hsettings, hfiles] at hfiles'
  obtain rfl := Except.ok.inj (Prod.mk.inj hfiles').1
  obtain ⟨hnone, hsome⟩ := says_of_checkFound hbasis hfound
  obtain ⟨hnone', hsome'⟩ := says_of_checkFound hbasis' hfound'
  by_cases hnil : files = []
  · rw [hnone hnil, hnone' hnil]
  · exact (hsome hnil).unique (hsome' hnil) hsettings hoptions h.noFail

end

/-- Let a command line be read, let it be settled what the check goes by, and let the program end
with a status.

* If results are to be written to a file and the format is not JSON, the status is 2, no file has
  changed, and the program has done nothing else than to say so.
* Otherwise files are found.  With no file the status is 0; with files it is what the check says of
  them: 2 if one of them cannot be read or is lost with its manifest, or else 1 if something is
  found, the settings make that a failure and no flag says otherwise, or else 0.
* Where no file is to be written, the status is that of every other command line that ends with one
  and differs in the format and in being quiet or verbose alone. -/
theorem run_check_status {words : List String} {a : Arguments}
    (hread : checkShape.read s.files s.workingDir words = .ok (some a))
    (hbasis : (basisOf (.ofArguments a)).run s = (.ok b, u))
    (hrun : (run ("check" :: words)).run s = (.ok status, v)) :
    ((CheckRequest.ofArguments a).misusesFile b = true →
      status = 2 ∧ v.files = s.files ∧
        (run ("check" :: words)).run s = (refuse checkShape (.other misuseText)).run u) ∧
    ((CheckRequest.ofArguments a).misusesFile b = false → ∃ files,
      (filesOf (CheckRequest.ofArguments a).paths b.settings.discovery).run s = (.ok files, s) ∧
      (files = [] → status = 0) ∧
      (files ≠ [] → Says (.ofArguments a) b s files status)) ∧
    (((CheckRequest.ofArguments a).fileWith b.settings.output).truthy = false →
      ∀ words' a' status' v', checkShape.read s.files s.workingDir words' = .ok (some a') →
        (CheckRequest.ofArguments a).TellsOtherwise (.ofArguments a') →
        (run ("check" :: words')).run s = (.ok status', v') → status' = status) := by
  have hends := run_check_of_basis hread hbasis hrun
  refine ⟨?_, ?_, ?_⟩
  · intro hmisuse
    rcases hends with ⟨-, hrefused⟩ | ⟨hno, -⟩
    · obtain ⟨t, ht, hfiles⟩ := run_refuse_other checkShape misuseText u
      have hend := hrun.symm.trans (hrefused.trans ht)
      obtain ⟨hstatus, rfl⟩ := Prod.mk.inj hend
      refine ⟨Except.ok.inj hstatus, ?_, hrefused⟩
      rw [hfiles, (sameFiles_of_basisOf hbasis).files]
    · rw [hmisuse] at hno
      cases hno
  · intro hfile
    rcases hends with ⟨hmisuse, -⟩ | ⟨-, files, hfiles, hfound⟩
    · rw [hfile] at hmisuse
      cases hmisuse
    · obtain ⟨hnone, hsome⟩ := says_of_checkFound hbasis hfound
      exact ⟨files, hfiles, hnone, hsome⟩
  · intro hfile words' a' status' v' hread' htells hrun'
    exact status_of_tellsOtherwise hread hread' htells hbasis hfile hrun hrun'

/-- What a check of one path as JSON goes by, and the files that it finds for it. -/
def isReady (s : Session) (path : String) (files : List Path) : Bool :=
  Run.endsIn (basisOf (.ofArguments (jsonArguments path))) s fun b _ =>
    !(CheckRequest.fileWith (.ofArguments (jsonArguments path)) b.settings.output).truthy &&
      b.options = {} && Run.endsIn (filesOf [path] b.settings.discovery) s fun found _ => found = files

theorem exists_of_isReady {path : String} {files : List Path} (h : isReady s path files = true) :
    ∃ b u, (basisOf (.ofArguments (jsonArguments path))).run s = (.ok b, u) ∧
      (CheckRequest.fileWith (.ofArguments (jsonArguments path)) b.settings.output).truthy = false ∧
      b.options = {} ∧ (filesOf [path] b.settings.discovery).run s = (.ok files, s) := by
  obtain ⟨b, u, hbasis, hb⟩ := Run.exists_of_endsIn h
  simp only [Bool.and_eq_true, Bool.not_eq_true', decide_eq_true_eq] at hb
  obtain ⟨⟨hfile, hoptions⟩, hfound⟩ := hb
  obtain ⟨found, t, hfiles, heq⟩ := Run.exists_of_endsIn hfound
  obtain rfl := of_decide_eq_true heq
  obtain rfl := (run_filesOf_eq_ok_iff.mp hfiles).1
  exact ⟨b, u, hbasis, hfile, hoptions, hfiles⟩

/-- A file with an import that is not declared makes a check fail. -/
theorem run_check_status_undeclared :
    ∃ status b u v files,
      checkShape.read (withEntry "a.js" undeclaredImport).files [] (jsonWords "a.js") =
        .ok (some (jsonArguments "a.js")) ∧
      (basisOf (.ofArguments (jsonArguments "a.js"))).run (withEntry "a.js" undeclaredImport) =
        (.ok b, u) ∧
      (run ("check" :: jsonWords "a.js")).run (withEntry "a.js" undeclaredImport) = (.ok status, v) ∧
      files ≠ [] ∧ status = 1 ∧
      Says (.ofArguments (jsonArguments "a.js")) b (withEntry "a.js" undeclaredImport) files
        status := by
  have hready : isReady (withEntry "a.js" undeclaredImport) "a.js" [⟨"", ["a.js"]⟩] = true := by
    decide +kernel
  have hends : Run.endsIn (run ("check" :: jsonWords "a.js")) (withEntry "a.js" undeclaredImport)
      (fun status _ => status = 1) = true := by decide +kernel
  have hread : checkShape.read (withEntry "a.js" undeclaredImport).files [] (jsonWords "a.js") =
      .ok (some (jsonArguments "a.js")) := rfl
  obtain ⟨b, u, hbasis, hfile, -, hfiles⟩ := exists_of_isReady hready
  obtain ⟨status, v, hrun, hstatus⟩ := Run.exists_of_endsIn hends
  have hmisuse := CheckRequest.misusesFile_of_noFile hfile
  obtain ⟨files, hfound, -, hsays⟩ := (run_check_status hread hbasis hrun).2.1 hmisuse
  have hsame := hfiles.symm.trans hfound
  obtain rfl := Except.ok.inj (Prod.mk.inj hsame).1
  exact ⟨status, b, u, v, _, hread, hbasis, hrun, List.cons_ne_nil _ _, of_decide_eq_true hstatus,
    hsays (List.cons_ne_nil _ _)⟩

/-- A session with a source file that imports `x`, and a manifest with an integer of 4301 digits. -/
def lostSession : Session where
  clock := ⟨"", ""⟩
  files := ⟨[(["a.js"], undeclaredImport),
    (["package.json"], .file (Text.Utf8.encode (String.ofList (Json.longNumber 4301))))]⟩

theorem read_lostSession :
    Manifest.textOf? (Manifest.held lostSession ⟨"/", ["package.json"]⟩) =
        some (Json.longNumber 4301) ∧
      Json.read (Json.longNumber 4301) = .error (.longInteger 4301) := by
  have hlines : '\r' ∉ (String.ofList (Json.longNumber 4301)).toList := by
    rw [String.toList_ofList]
    exact Run.notMem_longNumber 4301
  have hmark : (String.ofList (Json.longNumber 4301)).toList.head? ≠
      some Manifest.byteOrderMark := by
    rw [String.toList_ofList]
    exact Option.some_inj.not.mpr (by decide)
  have htext := Manifest.textOf?_encode hlines hmark
  rw [String.toList_ofList] at htext
  exact ⟨htext, Json.read_longNumber (by decide)⟩

theorem nearestTo_lostSession :
    Manifest.nearestTo lostSession "a.js" = .ok (some ⟨"/", ["package.json"]⟩) := by
  have hstart : (Files.Tree.absolute [] "a.js").parent.toString = "/" := by decide +kernel
  have hcandidates : (Files.Tree.absolute [] "/").ancestors.map (·.child Manifest.fileName) =
      [⟨"/", ["package.json"]⟩] := by decide +kernel
  unfold Manifest.nearestTo Manifest.nearest
  change lostSession.files.firstPresent [] ((Files.Tree.absolute []
    (Files.Tree.absolute [] "a.js").parent.toString).ancestors.map (·.child Manifest.fileName)) = _
  rw [hstart, hcandidates]
  rfl

/-- The manifest keeps a file that imports something from being checked. -/
theorem exists_of_lostSession :
    ∃ file f, SourceFile.load lostSession.files lostSession.workingDir ⟨"", ["a.js"]⟩ = .ok file ∧
      file.fileName = "a.js" ∧ file.allReferences.any Reference.isExternal = true ∧
      Manifest.ofFile lostSession "a.js" = .error f ∧ f.isOfValue = true := by
  have hfile : (match SourceFile.load lostSession.files lostSession.workingDir ⟨"", ["a.js"]⟩ with
      | .ok file => file.fileName = "a.js" && file.allReferences.any Reference.isExternal
      | .error _ => false) = true := by decide +kernel
  obtain ⟨htext, hread⟩ := read_lostSession
  obtain ⟨chars, hchars, hload⟩ := Manifest.load_eq_ofText htext
  have hmanifest : Manifest.ofFile lostSession "a.js" =
      .error (.json (.longInteger 4301) (Json.longNumber 4301)) := by
    rw [Manifest.ofFile_of_nearest nearestTo_lostSession, hload]
    unfold Manifest.ofText
    dsimp only
    rw [hchars, hread]
  split at hfile
  · next file hfound =>
      rw [Bool.and_eq_true, decide_eq_true_eq] at hfile
      exact ⟨file, _, hfound, hfile.1, hfile.2, hmanifest, rfl⟩
  · cases hfile

theorem isLost_lostSession :
    ∃ file, SourceFile.load lostSession.files lostSession.workingDir ⟨"", ["a.js"]⟩ = .ok file ∧
      IsLost lostSession ⟨"", ["a.js"]⟩ := by
  obtain ⟨file, f, hload, hname, hany, -⟩ := exists_of_lostSession
  obtain ⟨htext, hread⟩ := read_lostSession
  have hnear := nearestTo_lostSession
  rw [← hname] at hnear
  refine ⟨file, hload, file, _, hload, hany, hnear, ?_⟩
  rw [Manifest.overflows_iff htext]
  exact ⟨_, hread, nofun⟩

theorem settles_lostSession (o : RuleOptions) :
    Run.settles { options := o } lostSession ⟨"", ["a.js"]⟩ = true := by
  obtain ⟨file, f, hload, hname, hany, hmanifest, hvalue⟩ := exists_of_lostSession
  rw [← hname] at hmanifest
  exact Run.settles_of_fault (Run.singly_of_manifest hload hany hmanifest) hvalue

/-- The only source file can be read, and yet the status is 2. -/
theorem run_check_longNumber :
    ∃ b u v, (basisOf (.ofArguments (jsonArguments "a.js"))).run lostSession = (.ok b, u) ∧
      (CheckRequest.ofArguments (jsonArguments "a.js")).misusesFile b = false ∧
      (filesOf ["a.js"] b.settings.discovery).run lostSession = (.ok [⟨"", ["a.js"]⟩], lostSession) ∧
      ¬IsUnreadable lostSession ⟨"", ["a.js"]⟩ ∧
      (run ("check" :: jsonWords "a.js")).run lostSession = (.ok 2, v) := by
  have hready : isReady lostSession "a.js" [⟨"", ["a.js"]⟩] = true := by decide +kernel
  have hread : checkShape.read lostSession.files [] (jsonWords "a.js") =
      .ok (some (jsonArguments "a.js")) := rfl
  obtain ⟨b, u, hbasis, hfile, hoptions, hfiles⟩ := exists_of_isReady hready
  have hmisuse := CheckRequest.misusesFile_of_noFile hfile
  obtain ⟨file, hload, hlost⟩ := isLost_lostSession
  have hreadable : ¬IsUnreadable lostSession ⟨"", ["a.js"]⟩ := by
    rintro ⟨f, hf⟩
    have hboth := hload.symm.trans hf
    cases hboth
  -- the file settles, so the check comes to a result
  have hsettles : ∀ p ∈ [(⟨"", ["a.js"]⟩ : Path)],
      Run.settles { options := b.options } lostSession p = true := by
    intro p hp
    rw [List.mem_singleton.mp hp]
    exact settles_lostSession b.options
  obtain ⟨w, hresult⟩ := (check_eq_ok_gathered hbasis).mpr ⟨hsettles, rfl⟩
  have hcomes : CheckRequest.ComesTo (.ofArguments (jsonArguments "a.js")) lostSession _ :=
    ⟨b, u, _, w, hbasis, hmisuse, hfiles, List.cons_ne_nil _ _, hresult⟩
  obtain ⟨v, hcheck, -⟩ := hcomes.printsJson hbasis ⟨rfl, hfile⟩
  have hrun := run_check_of_read hread
  rw [hcheck] at hrun
  dsimp only at hrun
  rw [(says_statusOf hsettles).unchecked ⟨_, List.mem_singleton_self _, .inr hlost⟩] at hrun
  exact ⟨b, u, v, hbasis, hmisuse, hfiles, hreadable, hrun⟩

end Command

end ImportAudit
