/-
# ImportAudit.Proofs.Command.Lines — a line for each finding.

A check that is to be quiet, and not to print JSON, prints every finding on a line and tells of
errors and warnings on lines where errors go, and nothing else (`run_tell_quiet`).  So the lines are
told apart at the line feeds just if none of them has a line feed in it, or a command to a terminal.
Nothing keeps these out of them: the names of files and packages and the texts of errors are printed
as they are, and a template literal may have a line feed in it.
-/
import ImportAudit.Proofs.Command.Status
import ImportAudit.Proofs.Text.Lines

namespace ImportAudit.Command

open Run (run_bind_of_ok run_bind_eq_ok_iff)
open Text (printed IsLines)

variable {s t u v : Session} {status : Nat} {r : CheckRequest} {b : Basis}
  {result : CheckResult} {words : List String} {a : Arguments}

/-! ## What is printed -/

/-- The line of every finding. -/
def findingLines (result : CheckResult) : List String := result.findings.map findingLine

/-- The line of every error, and then of every warning. -/
def complaintLines (result : CheckResult) : List String :=
  result.errors.map ("error: " ++ ·) ++ result.warnings.map ("warning: " ++ ·)

theorem run_echoAll (texts : List String) (s : Session) :
    (echoAll texts).run s = (.ok (), { s with output := s.output ++ printed texts }) := by
  induction texts generalizing s with
  | nil =>
      show (Except.ok (), s) = (Except.ok (), { s with output := s.output ++ "" })
      rw [String.append_empty]
  | cons text texts ih =>
      have hone : (Run.echoPlain text).run s =
          (.ok (), { s with output := s.output ++ Text.withoutCommands text ++ "\n" }) := rfl
      rw [echoAll, run_bind_of_ok hone, ih, Text.printed_cons]
      simp only [String.append_assoc]

theorem run_complainAll (texts : List String) (s : Session) :
    (complainAll texts).run s = (.ok (), { s with errors := s.errors ++ printed texts }) := by
  induction texts generalizing s with
  | nil =>
      show (Except.ok (), s) = (Except.ok (), { s with errors := s.errors ++ "" })
      rw [String.append_empty]
  | cons text texts ih =>
      have hone : (Run.complain text).run s =
          (.ok (), { s with errors := s.errors ++ Text.withoutCommands text ++ "\n" }) := rfl
      rw [complainAll, run_bind_of_ok hone, ih, Text.printed_cons]
      simp only [String.append_assoc]

/-- Being quiet prints the lines, and does nothing else. -/
theorem run_tell_quiet (hquiet : r.quiet = true) (hformat : b.format ≠ "json")
    (result : CheckResult) (t : Session) :
    (tell r b result).run t = (.ok (statusOf (r.failsWith b.settings.output) result),
      { t with
        output := t.output ++ printed (findingLines result)
        errors := t.errors ++ printed (complaintLines result) }) := by
  have hdeliver : deliver b.format (r.fileWith b.settings.output) r result = printLines result := by
    unfold deliver
    rw [if_neg hformat, if_pos hquiet]
  unfold tell
  rw [hdeliver]
  unfold printLines
  rw [bind_assoc, run_bind_of_ok (run_echoAll _ _), bind_assoc,
    run_bind_of_ok (run_complainAll _ _), run_bind_of_ok (run_complainAll _ _)]
  unfold findingLines complaintLines
  rw [Text.printed_append, ← String.append_assoc]
  rfl

/-! ## A quiet check -/

/-- Let a check be asked for that is quiet and does not print JSON, let it be settled what it goes
by, and let it find files and end with a status.  It has come to a result, by which the status goes.
What it has printed is the line of every finding, and, where errors go and behind what was said when
settings were loaded, the line of every error and of every warning.  These are the lines of what is
printed if and only if no finding has a line feed or a command to a terminal in its line, and the
same holds of errors and warnings. -/
theorem run_check_quiet (hread : checkShape.read s.files s.workingDir words = .ok (some a))
    (hquiet : a.has "--quiet" = true) (hbasis : (basisOf (.ofArguments a)).run s = (.ok b, u))
    (hformat : b.format ≠ "json")
    (huses : (CheckRequest.ofArguments a).misusesFile b = false)
    (hsome : (filesOf (CheckRequest.ofArguments a).paths b.settings.discovery).run s ≠ (.ok [], s))
    (hrun : (run ("check" :: words)).run s = (.ok status, v)) :
    ∃ result, (CheckRequest.ofArguments a).ComesTo s result ∧
      status = statusOf ((CheckRequest.ofArguments a).failsWith b.settings.output) result ∧
      v.output = s.output ++ printed (findingLines result) ∧
      v.errors = u.errors ++ printed (complaintLines result) ∧
      (IsLines (printed (findingLines result)) (findingLines result) ↔
        ∀ f ∈ result.findings, '\n' ∉ (findingLine f).toList ∧
          Text.withoutCommands (findingLine f) = findingLine f) ∧
      (IsLines (printed (complaintLines result)) (complaintLines result) ↔
        ∀ line ∈ complaintLines result, '\n' ∉ line.toList ∧ Text.withoutCommands line = line) := by
  rcases run_check_of_basis hread hbasis hrun with ⟨hmisuse, -⟩ | ⟨-, files, hfiles, hfound⟩
  · rw [huses] at hmisuse
    cases hmisuse
  have hne : files ≠ [] := by
    rintro rfl
    exact hsome hfiles
  rw [checkFound_of_ne_nil _ b hne] at hfound
  obtain ⟨result, t, hresult, htell⟩ := run_bind_eq_ok_iff.mp hfound
  have houtput : t.output = s.output :=
    ((Run.keeps_check Session.blind_output.toBlindToLog files b.options).of_run hresult).trans
      ((keeps_basisOf Session.blind_output _).of_run hbasis)
  have herrors : t.errors = u.errors :=
    (Run.keeps_check Session.blindToLog_errors files b.options).of_run hresult
  rw [run_tell_quiet hquiet hformat] at htell
  obtain ⟨hstatus, rfl⟩ := Prod.mk.inj htell
  refine ⟨result, ⟨b, u, files, t, hbasis, huses, hfiles, hne, hresult⟩,
    (Except.ok.inj hstatus).symm, by rw [houtput], by rw [herrors], ?_,
    Text.isLines_printed_iff⟩
  rw [Text.isLines_printed_iff]
  exact List.forall_mem_map

/-- The words behind `check` that ask for the lines of what is found in a file. -/
def quietWords : List String := ["a.js", "--quiet"]

/-- The arguments that they give. -/
def quietArguments : Arguments where
  given := [({ name := "--quiet", letter := some 'q'
               help := "Only print one line per finding" }, "")]
  rest := ["a.js"]

/-- A file with an import that is not declared makes one line. -/
theorem run_check_quiet_undeclared :
    ∃ b u result v,
      checkShape.read (withEntry "a.js" undeclaredImport).files [] quietWords =
        .ok (some quietArguments) ∧
      quietArguments.has "--quiet" = true ∧
      (basisOf (.ofArguments quietArguments)).run (withEntry "a.js" undeclaredImport) = (.ok b, u) ∧
      b.format ≠ "json" ∧ (CheckRequest.ofArguments quietArguments).misusesFile b = false ∧
      (filesOf ["a.js"] b.settings.discovery).run (withEntry "a.js" undeclaredImport) ≠
        (.ok [], withEntry "a.js" undeclaredImport) ∧
      (run ("check" :: quietWords)).run (withEntry "a.js" undeclaredImport) = (.ok failed, v) ∧
      (CheckRequest.ofArguments quietArguments).ComesTo (withEntry "a.js" undeclaredImport) result ∧
      v.output = "a.js:1:8: Module 'x' is not listed as dependency in package.json\n" ∧
      v.output = printed (findingLines result) := by
  have hread : checkShape.read (withEntry "a.js" undeclaredImport).files [] quietWords =
      .ok (some quietArguments) := rfl
  have hready : Run.endsIn (basisOf (.ofArguments quietArguments))
      (withEntry "a.js" undeclaredImport) (fun b _ =>
        b.format ≠ "json" && !(CheckRequest.ofArguments quietArguments).misusesFile b &&
          Run.endsIn (filesOf ["a.js"] b.settings.discovery) (withEntry "a.js" undeclaredImport)
            fun files _ => files ≠ []) = true := by decide +kernel
  have hends : Run.endsIn (run ("check" :: quietWords)) (withEntry "a.js" undeclaredImport)
      (fun status v => status = failed && v.output =
        "a.js:1:8: Module 'x' is not listed as dependency in package.json\n") = true := by
    decide +kernel
  obtain ⟨b, u, hbasis, hb⟩ := Run.exists_of_endsIn hready
  simp only [Bool.and_eq_true, Bool.not_eq_true', decide_eq_true_eq] at hb
  obtain ⟨⟨hformat, huses⟩, hfound⟩ := hb
  obtain ⟨files, w, hfiles, hne⟩ := Run.exists_of_endsIn hfound
  have hsome : (filesOf ["a.js"] b.settings.discovery).run (withEntry "a.js" undeclaredImport) ≠
      (.ok [], withEntry "a.js" undeclaredImport) := by
    intro hnone
    have hboth := hfiles.symm.trans hnone
    cases hboth
    exact absurd rfl (of_decide_eq_true hne)
  obtain ⟨status, v, hrun, hv⟩ := Run.exists_of_endsIn hends
  simp only [Bool.and_eq_true, decide_eq_true_eq] at hv
  obtain ⟨rfl, hprinted⟩ := hv
  obtain ⟨result, hcomes, -, houtput, -⟩ :=
    run_check_quiet hread rfl hbasis hformat huses hsome hrun
  exact ⟨b, u, result, v, hread, rfl, hbasis, hformat, huses, hsome, hrun, hcomes, hprinted,
    houtput.trans String.empty_append⟩

/-- A session with a source file that asks for a package by a template with a line feed in it. -/
def brokenSession : Session :=
  withEntry "a.js" (.file (Text.Utf8.encode "require(`@a\nb`)"))

/-- One finding makes two lines if its package has a line feed in its name. -/
theorem run_check_quiet_broken :
    ∃ result t status v,
      (Run.check [⟨"", ["a.js"]⟩] {}).run brokenSession = (.ok result, t) ∧
      findingLines result =
        ["a.js:1:9: Module '@a\nb' is not listed as dependency in package.json"] ∧
      (run ("check" :: quietWords)).run brokenSession = (.ok status, v) ∧
      IsLines v.output ["a.js:1:9: Module '@a", "b' is not listed as dependency in package.json"] ∧
      ¬IsLines v.output (findingLines result) := by
  have hcheck : Run.endsIn (Run.check [⟨"", ["a.js"]⟩] {}) brokenSession (fun result _ =>
      findingLines result =
        ["a.js:1:9: Module '@a\nb' is not listed as dependency in package.json"]) = true := by
    decide +kernel
  have hends : Run.endsIn (run ("check" :: quietWords)) brokenSession (fun _ v => v.output =
      printed ["a.js:1:9: Module '@a", "b' is not listed as dependency in package.json"]) =
        true := by decide +kernel
  obtain ⟨result, t, hresult, hline⟩ := Run.exists_of_endsIn hcheck
  obtain ⟨status, v, hrun, hprinted⟩ := Run.exists_of_endsIn hends
  have hfindings := of_decide_eq_true hline
  have htwo : IsLines v.output
      ["a.js:1:9: Module '@a", "b' is not listed as dependency in package.json"] := by
    rw [of_decide_eq_true hprinted]
    exact Text.isLines_printed (by decide +kernel)
  refine ⟨result, t, status, v, hresult, hfindings, hrun, htwo, fun hone => ?_⟩
  -- two lines are not one
  have hcount := congrArg List.length (htwo.symm.trans hone)
  rw [hfindings] at hcount
  simp only [List.map_cons, List.map_nil, List.cons_append, List.nil_append, List.length_cons,
    List.length_nil] at hcount
  omega

end ImportAudit.Command
