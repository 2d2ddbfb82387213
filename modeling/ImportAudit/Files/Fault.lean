/-
# ImportAudit.Files.Fault — what can go wrong with a file.
-/
import ImportAudit.Text.Quoted

namespace ImportAudit.Files

/-- Why the system refuses an operation on a file. -/
inductive Refusal
  | noEntry
  | badDescriptor
  | denied
  | exists
  | notDirectory
  | isDirectory
  | nameTooLong
  | tooManyLinks
  deriving DecidableEq, Repr

namespace Refusal

/-- The number of a refusal. -/
def number : Refusal → Nat
  | .noEntry => 2
  | .badDescriptor => 9
  | .denied => 13
  | .exists => 17
  | .notDirectory => 20
  | .isDirectory => 21
  | .nameTooLong => 36
  | .tooManyLinks => 40

/-- The wording of a refusal. -/
def description : Refusal → String
  | .noEntry => "No such file or directory"
  | .badDescriptor => "Bad file descriptor"
  | .denied => "Permission denied"
  | .exists => "File exists"
  | .notDirectory => "Not a directory"
  | .isDirectory => "Is a directory"
  | .nameTooLong => "File name too long"
  | .tooManyLinks => "Too many levels of symbolic links"

end Refusal

/-- The name of the kind of refusal with the given number. -/
def kindOfNumber (n : Nat) : String :=
  match n with
  | 1 | 13 => "PermissionError"
  | 2 => "FileNotFoundError"
  | 3 => "ProcessLookupError"
  | 4 => "InterruptedError"
  | 10 => "ChildProcessError"
  | 11 | 114 | 115 => "BlockingIOError"
  | 17 => "FileExistsError"
  | 20 => "NotADirectoryError"
  | 21 => "IsADirectoryError"
  | 32 | 108 => "BrokenPipeError"
  | 103 => "ConnectionAbortedError"
  | 104 => "ConnectionResetError"
  | 110 => "TimeoutError"
  | 111 => "ConnectionRefusedError"
  | _ => "OSError"

/-- A refused operation on the file of a path. -/
structure Fault where
  refusal : Refusal
  path : String
  deriving DecidableEq, Repr

namespace Fault

/-- The name of the kind of fault. -/
def kindName (f : Fault) : String := kindOfNumber f.refusal.number

/-- The message of a fault. -/
def message (f : Fault) : String :=
  "[Errno " ++ toString f.refusal.number ++ "] " ++ f.refusal.description ++ ": " ++
    Text.quoted f.path

end Fault

end ImportAudit.Files
