/-
# ImportAudit.Report.Listing — a result as it is shown on a console.

Under a heading come the errors, the warnings, and a table for every file in which something was
found; the last lines sum up.  A listing is a sequence of blocks, because a block may turn out not
to be printable when those before it are on the console already.
-/
import ImportAudit.Console.Table
import ImportAudit.Report.Result
import ImportAudit.Text.Sorted

namespace ImportAudit.Report

open Console

/-- The findings of a file in a table. -/
def fileTable (width : Nat) (fileName : String) (findings : List Finding) : Except Fault String :=
  table width ("📁 " ++ fileName)
    [⟨"Location", false, findings.map fun f => toString f.line ++ ":" ++ toString f.column⟩,
      ⟨"Package", true, findings.map Finding.package⟩,
      ⟨"Message", true, findings.map Finding.message⟩]

/-- A heading with items below it and an empty line, or nothing if there are no items. -/
def itemized (width : Nat) (heading : String) (items : List String) :
    List (Except Fault String) :=
  if items = [] then []
  else
    paragraph width heading :: (items.map fun i => paragraph width ("   • " ++ i)) ++ [.ok "\n"]

/-- The packages that were found, in order, each once. -/
def packages (r : CheckResult) : List String := Text.sortedSet (r.findings.map Finding.package)

/-- The lines that sum up. -/
def footer (width : Nat) (verbose : Bool) (r : CheckResult) : List (Except Fault String) :=
  if r.hasFindings then
    paragraph width
      ("⚠️  " ++ toString r.findings.length ++ " implicit dependenc" ++
        (if r.findings.length = 1 then "y" else "ies") ++ " in " ++
        toString r.byFile.length ++ " file(s)") ::
      (if verbose then
        [paragraph width ("   Add these packages to package.json or to the ignore list: " ++
          ", ".intercalate (packages r))]
      else [])
  else [paragraph width "✅ No implicit dependencies found."]

/-- The blocks of a listing. -/
def listing (width : Nat) (verbose : Bool) (r : CheckResult) : List (Except Fault String) :=
  .ok "\n" ::
    panel width "[bold blue]no-implicit-dependencies[/bold blue]"
      ("🔍 Checked " ++ toString r.filesChecked ++ " file(s)") ::
    itemized width "❌ Errors:" r.errors ++
    itemized width "⚠️  Warnings:" r.warnings ++
    (r.byFile.map fun g => fileTable width g.1 g.2) ++
    footer width verbose r

end ImportAudit.Report
