/-
# ImportAudit.Log.Trace — what is logged of the check of a file.

A check begins with a record that sets the context of both loggers, and ends with one behind which
both contexts are empty.  In between the checker tells of every finding, and the manifests' logger
of the manifest that was consulted.
-/
import ImportAudit.Log.Logger

namespace ImportAudit.Log.Loggers

/-- A check of a file begins, in a run that may have a name. -/
def checkStarted (ls : Loggers) (clock : Clock) (filePath runId : Value) :
    Loggers × List String :=
  let ls := ls.both (·.withContext filePath runId)
  (ls, ls.checker.emit clock .debug "check_started" [])

/-- A check of a file ends, after so many milliseconds and with so many findings. -/
def checkCompleted (ls : Loggers) (clock : Clock) (filePath duration count : Value) :
    Loggers × List String :=
  (ls.both (·.cleared),
    ls.checker.emit clock .info "check_completed"
      [("file_path", filePath), ("check_duration_ms", duration), ("total_findings", count)])

/-- A manifest was consulted for some of its sections, and allows so many packages; or there is
none. -/
def manifestResolved (ls : Loggers) (clock : Clock) (path sections count : Value) : List String :=
  match path with
  | .null => ls.manifest.emit clock .debug "manifest_not_found" []
  | path =>
    ls.manifest.emit clock .debug "manifest_resolved"
      [("manifest_path", path), ("sections", sections), ("allowed_packages", count)]

/-- An undeclared package was found at a place. -/
def packageFound (ls : Loggers) (clock : Clock) (package line column : Value) : List String :=
  ls.checker.emit clock .debug "implicit_dependency"
    [("package_name", package), ("line", line), ("column", column)]

end ImportAudit.Log.Loggers
