/-
# ImportAudit.Log.Severity — how grave a record is.

A logger has a threshold, and records below it are dropped.  The threshold is named, in any case of
letters; a name that is unknown stands for the default.  A logger without a threshold of its own
has the one of its parent, which is the default too.
-/
import ImportAudit.Log.Fault
import ImportAudit.Text.Casing

namespace ImportAudit.Log

/-- How grave a record is. -/
inductive Severity
  | debug
  | info
  | warning
  | error
  | critical
  deriving DecidableEq, Repr

namespace Severity

/-- The rank of a severity. -/
def rank : Severity → Nat
  | .debug => 10
  | .info => 20
  | .warning => 30
  | .error => 40
  | .critical => 50

/-- The name of a severity. -/
def name : Severity → String
  | .debug => "DEBUG"
  | .info => "INFO"
  | .warning => "WARNING"
  | .error => "ERROR"
  | .critical => "CRITICAL"

/-- The names that thresholds go by. -/
def thresholds : List (String × Option Severity) :=
  [("DEBUG", some .debug), ("INFO", some .info), ("WARNING", some .warning),
    ("WARN", some .warning), ("ERROR", some .error), ("CRITICAL", some .critical),
    ("FATAL", some .critical), ("NOTSET", none)]

/-- The layouts that go by a name like those of thresholds, one by itself and all in a table, and
the fault of taking each for a threshold. -/
def layouts : List (String × Fault) :=
  [("BASIC_FORMAT", .noSeverity "%(levelname)s:%(name)s:%(message)s"),
    ("_STYLES", .severityType
      ("\x7b'%': (<class 'logging.PercentStyle'>, '%(levelname)s:%(name)s:%(message)s'), " ++
        "'\x7b': (<class 'logging.StrFormatStyle'>, " ++
        "'\x7blevelname\x7d:\x7bname\x7d:\x7bmessage\x7d'), " ++
        "'$': (<class 'logging.StringTemplateStyle'>, " ++
        "'$\x7blevelname\x7d:$\x7bname\x7d:$\x7bmessage\x7d')\x7d"))]

/-- The threshold of a name; none means that of the parent. -/
def threshold (text : String) : Except Fault (Option Severity) :=
  let name := Text.upper text
  match layouts.lookup name with
  | some fault => .error fault
  | none => .ok ((thresholds.lookup name).getD (some .warning))

end Severity

end ImportAudit.Log
