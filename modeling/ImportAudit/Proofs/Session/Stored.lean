/-
# ImportAudit.Proofs.Session.Stored — how a file is stored makes no difference to its check.

A text may be stored behind a mark or without one, and with its lines ended in any way.  Where a
file is stored in another form, it is read as the same text, and so is every manifest, even if the
file is one itself (`load_rewritten`).  So the check of the file comes to the same, place by place
(`checkPath_stored`).
-/
import ImportAudit.Proofs.Files.Rewriting
import ImportAudit.Proofs.Files.Stored
import ImportAudit.Proofs.Session.Single

namespace ImportAudit

open Files
open Manifest (Form IsUniform byteOrderMark)

namespace Manifest

variable {t : Tree} {place : Place} {text : String} {form form' : Form}

/-- A manifest is loaded as before where a file is stored in another form. -/
theorem load_rewritten (h : IsUniform text)
    (hfile : t.entry? place = some (.file (form.store text))) (form' : Form) (workingDir : Place)
    (path : Path) :
    load (t.put place (.file (form'.store text))) workingDir path = load t workingDir path := by
  unfold load
  rcases Tree.read_rewritten hfile (form'.store text) workingDir path.toString with
    ⟨hread, hread'⟩ | hsame
  · rw [hread, hread']
    dsimp only
    rw [ofBytes_store h, ofBytes_store h]
  · rw [hsame]

/-- The same path is the first that leads to something. -/
theorem firstPresent_sameShape {t t' : Tree} (h : t.SameShape t') (workingDir : Place)
    (paths : List Path) : t.firstPresent workingDir paths = t'.firstPresent workingDir paths := by
  induction paths with
  | nil => rfl
  | cons p ps ih =>
      rw [Tree.firstPresent, Tree.firstPresent, Tree.hasEntry_sameShape h, ih]

/-- A file goes by the same manifest where a file is stored in another form. -/
theorem ofFile_rewritten {s : Session} (h : IsUniform text)
    (hfile : s.files.entry? place = some (.file (form.store text))) (form' : Form) (file : String) :
    ofFile { s with files := s.files.put place (.file (form'.store text)) } file =
      ofFile s file := by
  have hshape := Tree.sameShape_put hfile (form'.store text)
  have hnearest : nearestTo { s with files := s.files.put place (.file (form'.store text)) } file =
      nearestTo s file := firstPresent_sameShape hshape _ _
  unfold ofFile
  rw [hnearest]
  simp only [load_rewritten h hfile]

end Manifest

namespace SourceFile

variable {t : Tree} {workingDir : Place} {path : Path}

/-- A file that can be read is read, whatever it holds. -/
theorem load_of_read {bytes : List UInt8} (h : t.read workingDir path.toString = .ok bytes) :
    load t workingDir path = .ok ⟨path.toString, String.ofList (textOf bytes)⟩ := by
  unfold load
  rw [h]

/-- A source file is read as its text, in whatever form it is stored. -/
theorem load_of_store {text : String} (h : IsUniform text) {form : Form}
    (hread : t.read workingDir path.toString = .ok (form.store text)) :
    load t workingDir path = .ok ⟨path.toString, text⟩ := by
  rw [load_of_read hread, textOf_store h, String.ofList_toList]

end SourceFile

namespace Run

/-- What the check of a file comes to goes by the text that is read and by its manifest. -/
theorem singly_eq_of_load {o : RuleOptions} {s t : Session} {path : Path}
    (hload : SourceFile.load t.files t.workingDir path =
      SourceFile.load s.files s.workingDir path)
    (hmanifest : ∀ file, Manifest.ofFile t file = Manifest.ofFile s file) :
    singly o t path = singly o s path := by
  unfold singly singlyOf
  rw [hload]
  simp only [hmanifest]

/-- Let the text have no carriage return, and let it not begin with a mark.

* In whatever form it is stored in the file of a path, the source file that is read has the path for
  its name, and the text.
* The file can be given the text in any other form, and then its check ends as before: with the same
  findings in the same places, or with the same fault.
* Of whatever bytes a file holds, a source file is read.
* Of the marks that the bytes begin with, the first is no part of the text, and all others are; and
  if there is none, all that is read is text. -/
theorem checkPath_stored :
    (∀ {text : String}, IsUniform text → ∀ (form : Form) (path : Path) (s : Session),
      s.files.read s.workingDir path.toString = .ok (form.store text) →
        SourceFile.load s.files s.workingDir path = .ok ⟨path.toString, text⟩ ∧
        ∀ form' : Form, ∃ files,
          s.files.write s.workingDir path.toString (form'.store text) = .ok files ∧
          SourceFile.load files s.workingDir path = .ok ⟨path.toString, text⟩ ∧
          ∀ o : RuleOptions, ((checkPath path o).run { s with files }).1 =
            ((checkPath path o).run s).1) ∧
    (∀ (t : Tree) workingDir (path : Path) bytes,
      t.read workingDir path.toString = .ok bytes →
        SourceFile.load t workingDir path =
          .ok ⟨path.toString, String.ofList (SourceFile.textOf bytes)⟩) ∧
    (∀ bytes, SourceFile.textOf (Text.Utf8.encode (String.ofList [byteOrderMark]) ++ bytes) =
      Text.Utf8.unifyLines (Text.Utf8.repair bytes)) ∧
    ∀ bytes, (Text.Utf8.unifyLines (Text.Utf8.repair bytes)).head? ≠ some byteOrderMark →
      SourceFile.textOf bytes = Text.Utf8.unifyLines (Text.Utf8.repair bytes) := by
  refine ⟨?_, fun _ _ _ _ hread => SourceFile.load_of_read hread, SourceFile.textOf_marked,
    fun _ hhead => Manifest.withoutMark_of_unmarked hhead⟩
  intro text htext form path s hread
  have hload := SourceFile.load_of_store htext hread
  obtain ⟨place, hfile, hwrite⟩ := Tree.write_of_read hread
  refine ⟨hload, fun form' => ⟨_, hwrite _, ?_⟩⟩
  have hload' : SourceFile.load (s.files.put place (.file (form'.store text))) s.workingDir path =
      .ok ⟨path.toString, text⟩ := by
    rcases Tree.read_rewritten hfile (form'.store text) s.workingDir path.toString with
      ⟨-, hread'⟩ | hsame
    · exact SourceFile.load_of_store htext hread'
    · exact SourceFile.load_of_store htext (hsame.trans hread)
  refine ⟨hload', fun o => ?_⟩
  obtain ⟨_, hrun, -⟩ := applyTo_run_singly o s path
  obtain ⟨_, hrun', -⟩ := applyTo_run_singly o
    { s with files := s.files.put place (.file (form'.store text)) } path
  have hsingly := singly_eq_of_load (o := o) (hload'.trans hload.symm)
    (Manifest.ofFile_rewritten htext hfile form')
  rw [checkPath, hrun, hrun', hsingly]

/-- A source of two lines. -/
def twoLines : String := "import 'é'\nimport 'y'\n"

/-- A session with the source, behind a mark and with its lines ended by two characters. -/
def withMarkedSource : Session where
  clock := ⟨"", ""⟩
  files := ⟨[(["a.js"], .file (Form.store ⟨true, .both⟩ twoLines))]⟩

/-- The source is found to import what is not declared in both lines, also if these are ended by
carriage returns and there is no mark. -/
theorem checkPath_stored_twoLines :
    ∃ files findings, withMarkedSource.files.write [] "a.js"
        (Form.store ⟨false, .carriageReturn⟩ twoLines) = .ok files ∧
      ((checkPath ⟨"", ["a.js"]⟩ {}).run { withMarkedSource with files }).1 = .ok findings ∧
      findings.map (fun f => (f.line, f.column, f.start, f.stop)) =
        [(1, 8, 7, 10), (2, 8, 18, 21)] := by
  have huniform : IsUniform twoLines := ⟨by decide +kernel, by decide +kernel⟩
  have hread : withMarkedSource.files.read [] (Path.toString ⟨"", ["a.js"]⟩) =
      .ok (Form.store ⟨true, .both⟩ twoLines) := by decide +kernel
  have hends : endsIn (checkPath ⟨"", ["a.js"]⟩ {}) withMarkedSource (fun findings _ =>
      findings.map (fun f => (f.line, f.column, f.start, f.stop)) =
        [(1, 8, 7, 10), (2, 8, 18, 21)]) = true := by decide +kernel
  obtain ⟨findings, t, hrun, hfindings⟩ := exists_of_endsIn hends
  obtain ⟨-, hother⟩ := checkPath_stored.1 huniform ⟨true, .both⟩ _ withMarkedSource hread
  obtain ⟨files, hwrite, -, hsame⟩ := hother ⟨false, .carriageReturn⟩
  refine ⟨files, findings, hwrite, ?_, of_decide_eq_true hfindings⟩
  rw [hsame, hrun]

end Run

end ImportAudit
