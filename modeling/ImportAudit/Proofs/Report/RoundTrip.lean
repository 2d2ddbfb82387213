/-
# ImportAudit.Proofs.Report.RoundTrip — a result that was written as JSON is read as it was.

What is written for a result is a JSON text of it, and the lists and mappings of a result lie three
deep, so that the text is read as the value of the result (`CheckResult.read_toJson`) unless a number
in it is too long for the reader (`CheckResult.HasFewDigits`).  Writing a result puts this text where
it is asked for, and nowhere else: it is printed, or it is what the file of that name holds
afterwards, whatever it held before (`writeJson_reads_back`).
-/
import ImportAudit.Proofs.Command.Output
import ImportAudit.Proofs.Files.Writing
import ImportAudit.Proofs.Json.Decoding
import ImportAudit.Proofs.Text.Utf8

namespace ImportAudit

open Json (FewDigits IsBounded)

/-! ## Results within the bounds of the reader -/

/-- The numbers of a result are not too long to be read. -/
structure CheckResult.HasFewDigits (r : CheckResult) : Prop where
  filesChecked : FewDigits r.filesChecked
  total : FewDigits r.findings.length
  place : ∀ f ∈ r.findings,
    FewDigits f.line ∧ FewDigits f.column ∧ FewDigits f.start ∧ FewDigits f.stop

theorem Finding.isBounded_toValue {f : Finding} (hline : FewDigits f.line)
    (hcolumn : FewDigits f.column) (hstart : FewDigits f.start) (hstop : FewDigits f.stop)
    (depth : Nat) : IsBounded (depth + 1) f.toValue := by
  have htext : ∀ s : String, IsBounded depth (.text s) := fun s => .flat trivial
  refine .mapping ?_
  simp only [List.map_cons, List.map_nil, List.forall_mem_cons]
  exact ⟨htext _, htext _, htext _, .flat hline, .flat hcolumn, .flat hstart, .flat hstop, htext _,
    nofun⟩

theorem Json.isBounded_ofTexts (texts : List String) (depth : Nat) :
    IsBounded (depth + 1) (.ofTexts texts) := by
  refine .list fun v hv => ?_
  obtain ⟨text, -, rfl⟩ := List.mem_map.mp hv
  exact .flat trivial

/-- The findings lie in a list, which lies in the result. -/
theorem CheckResult.HasFewDigits.isBounded_toValue {r : CheckResult} (h : r.HasFewDigits)
    (depth : Nat) : IsBounded (depth + 3) r.toValue := by
  have hfindings : IsBounded (depth + 2) (.list (r.findings.map Finding.toValue)) := by
    refine .list fun v hv => ?_
    obtain ⟨f, hf, rfl⟩ := List.mem_map.mp hv
    obtain ⟨hline, hcolumn, hstart, hstop⟩ := h.place f hf
    exact Finding.isBounded_toValue hline hcolumn hstart hstop depth
  refine .mapping ?_
  simp only [List.map_cons, List.map_nil, List.forall_mem_cons]
  exact ⟨.flat h.filesChecked, .flat h.total, hfindings, Json.isBounded_ofTexts _ _,
    Json.isBounded_ofTexts _ _, nofun⟩

/-- The text of a result is read as its value, also with blanks behind it. -/
theorem CheckResult.read_toJson {r : CheckResult} (h : r.HasFewDigits) {behind : List Char}
    (hbehind : Json.IsBlanks behind) : Json.read (r.toJson.toList ++ behind) = .ok r.toValue :=
  Json.read_of_isText (h.isBounded_toValue 987)
    (Json.isText_render r.isPlain_toValue.isDenotable .report hbehind)

namespace Command

open Run (run_bind_of_ok)

variable {s : Session}

/-! ## Writing a result -/

/-- What is said after a result was written to a file. -/
def savedText (path : String) : String := "✅ Results saved to " ++ path

/-- Saying something where errors go changes nothing else, also if it cannot be said. -/
theorem run_warnAt (width : Nat) (text : String) (s : Session) :
    ∃ errors, (Run.warnAt width text).run s =
      ((Console.paragraph width text).map fun _ => (), { s with errors }) := by
  unfold Run.warnAt
  cases Console.paragraph width text with
  | ok shown => exact ⟨s.errors ++ shown, rfl⟩
  | error f => exact ⟨s.errors, rfl⟩

/-- A file that cannot be written to is refused, and nothing has changed. -/
theorem run_writeText_of_not_isWritable {path : String} (text : String)
    (h : ¬s.files.IsWritable s.workingDir path) :
    ∃ f, (writeText path text).run s = (.error (.files f), s) := by
  match hwrite : s.files.write s.workingDir path (Text.Utf8.encode text) with
  | .ok files =>
      obtain ⟨place, hlocate, hdirectory, -⟩ := Files.Tree.write_eq_ok_iff.mp hwrite
      exact absurd ⟨place, hlocate, hdirectory⟩ h
  | .error f =>
      exact ⟨f, by rw [run_writeText, hwrite]⟩

/-- A file that was written to holds the text and nothing else. -/
theorem run_writeText_of_isWritable {path : String} (text : String) (hsound : s.files.Sound)
    (hdir : s.files.entry? s.workingDir = some .directory)
    (h : s.files.IsWritable s.workingDir path) :
    ∃ files, (writeText path text).run s = (.ok (), { s with files }) ∧
      files.read s.workingDir path = .ok (Text.Utf8.encode text) := by
  obtain ⟨place, hlocate, hdirectory⟩ := h
  have hwrite := Files.Tree.write_eq_ok_iff.mpr
    ⟨place, hlocate, hdirectory, (rfl : _ = s.files.put place (.file (Text.Utf8.encode text)))⟩
  exact ⟨_, by rw [run_writeText, hwrite], Files.Tree.read_of_write hsound hdir hwrite⟩

theorem run_writeJson_of_file (result : CheckResult) {path : String} (h : path ≠ "")
    (s : Session) : (writeJson result (.text path)).run s =
      (writeText path result.toJson >>= fun _ =>
        Run.warnAt Run.outputWidth (savedText path)).run s := by
  have htruthy : Value.truthy (.text path) = true := bne_iff_ne.mpr h
  unfold writeJson
  rw [htruthy, if_pos rfl]
  rfl

/-- Let the numbers of a result not be too long to be read.  The text that is written for it is read
as its value, which has the number of findings, and the findings, errors and warnings in order.

* If no file is named, this text is printed, and that is all that happens.
* If a file is named that can be written to, it holds this text and nothing else afterwards, and
  nothing is printed; the run ends as saying so does.
* If the file cannot be written to, the run ends in a refusal, and nothing has changed. -/
theorem writeJson_reads_back (result : CheckResult) (hfew : result.HasFewDigits) :
    Json.read result.toJson.toList = .ok result.toValue ∧
    Json.read (result.toJson ++ "\n").toList = .ok result.toValue ∧
    result.toValue = .ofMembers [("files_checked", .int result.filesChecked),
      ("total_findings", .int result.findings.length),
      ("findings", .list (result.findings.map Finding.toValue)),
      ("errors", .ofTexts result.errors), ("warnings", .ofTexts result.warnings)] ∧
    (∀ file (s : Session), file.truthy = false → (writeJson result file).run s =
      (.ok (), { s with output := s.output ++ result.toJson ++ "\n" })) ∧
    (∀ path (s : Session), path ≠ "" → s.files.IsWritable s.workingDir path → s.files.Sound →
      s.files.entry? s.workingDir = some .directory →
      ∃ v bytes, (writeJson result (.text path)).run s =
          ((Console.paragraph Run.outputWidth (savedText path)).map fun _ => (), v) ∧
        v.output = s.output ∧ v.workingDir = s.workingDir ∧
        v.files.read v.workingDir path = .ok bytes ∧
        Text.Utf8.decode bytes = .ok result.toJson.toList) ∧
    (∀ path (s : Session), path ≠ "" → ¬s.files.IsWritable s.workingDir path →
      ∃ f, (writeJson result (.text path)).run s = (.error (.files f), s)) := by
  refine ⟨?_, ?_, rfl, ?_, ?_, ?_⟩
  · have hread := CheckResult.read_toJson hfew Json.isBlanks_nil
    rwa [List.append_nil] at hread
  · have hbreak : Json.IsBlanks ['\n'] := by
      intro c hc
      rw [List.mem_singleton.mp hc]
      rfl
    rw [String.toList_append]
    exact CheckResult.read_toJson hfew hbreak
  · intro file s hfile
    exact run_writeJson_of_noFile result hfile s
  · intro path s hpath hwritable hsound hdir
    obtain ⟨files, hwritten, hread⟩ :=
      run_writeText_of_isWritable result.toJson hsound hdir hwritable
    obtain ⟨errors, hsaid⟩ := run_warnAt Run.outputWidth (savedText path) { s with files }
    refine ⟨{ s with files, errors }, Text.Utf8.encode result.toJson, ?_, rfl, rfl, hread,
      Text.Utf8.decode_encode _⟩
    rw [run_writeJson_of_file result hpath, run_bind_of_ok hwritten, hsaid]
  · intro path s hpath hrefused
    obtain ⟨f, hf⟩ := run_writeText_of_not_isWritable result.toJson hrefused
    refine ⟨f, ?_⟩
    rw [run_writeJson_of_file result hpath, Run.run_bind, hf]

/-- A result with a finding, an error and a warning, in whose texts there are quotes, backslashes,
line breaks and characters that are not ASCII. -/
def quotedResult : CheckResult where
  filesChecked := 2
  findings := [{ package := "r\"x", message := Finding.messageFor "r\"x", fileName := "ä\\b.js",
                 line := 1, column := 8, start := 7, stop := 12 }]
  errors := ["c.js\n😀"]
  warnings := ["\x7f"]

theorem hasFewDigits_quotedResult : quotedResult.HasFewDigits where
  filesChecked := by decide +kernel
  total := by decide +kernel
  place := by
    intro f hf
    rw [List.mem_singleton.mp hf]
    decide +kernel

/-- In an empty tree the result is written to a new file, and it is read back from there. -/
theorem writeJson_reads_back_newFile :
    Json.read quotedResult.toJson.toList = .ok quotedResult.toValue ∧
    ∃ v bytes, (writeJson quotedResult (.text "out.json")).run { clock := ⟨"", ""⟩ } =
        ((Console.paragraph Run.outputWidth (savedText "out.json")).map fun _ => (), v) ∧
      v.output = "" ∧ v.files.read v.workingDir "out.json" = .ok bytes ∧
      Text.Utf8.decode bytes = .ok quotedResult.toJson.toList := by
  have hsound : (Files.Tree.mk []).Sound := ⟨.nil, nofun, nofun, nofun⟩
  have hwritable : (Files.Tree.mk []).IsWritable [] "out.json" := by
    refine ⟨["out.json"], by decide +kernel, ?_⟩
    intro heq
    cases heq
  obtain ⟨hread, -, -, -, hfile, -⟩ :=
    writeJson_reads_back quotedResult hasFewDigits_quotedResult
  obtain ⟨v, bytes, hrun, houtput, -, hbytes, hdecode⟩ :=
    hfile "out.json" { clock := ⟨"", ""⟩ } (by decide) hwritable hsound rfl
  exact ⟨hread, v, bytes, hrun, houtput, hbytes, hdecode⟩

end Command

end ImportAudit
