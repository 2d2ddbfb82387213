/-
# ImportAudit.Proofs.Command.Dispatch — which command carries out a command line.

A command line that is read is handed to the command that it is for, with its arguments
(`run_perform`), and the words behind a name to the command of that name (`run_descend`).  So the
program does what the command does that its words name.
-/
import ImportAudit.Command.Program
import ImportAudit.Proofs.Session.Steps

namespace ImportAudit.Command

variable {s : Session} {words : List String} {a : Arguments}

/-! ## One command -/

/-- A command line that is read is carried out; if it is refused there, that is told. -/
theorem run_perform {shape : Shape} (body : Arguments → Run Nat)
    (hread : shape.read s.files s.workingDir words = .ok (some a)) :
    (perform shape body words).run s =
      match (body a).run s with
      | (.ok status, t) => (.ok status, t)
      | (.error (.usage message), t) => (refuse shape (.other message)).run t
      | (.error f, t) => (.error f, t) := by
  unfold perform withArguments
  rw [Run.run_get_bind, hread]
  dsimp only
  rw [Run.run_tryCatch]
  match (body a).run s with
  | (.ok status, t) => rfl
  | (.error f, t) => cases f <;> rfl

/-! ## Commands below others -/

/-- A name is that of a command, and the words behind it are for that one. -/
theorem run_descend {shape : Shape} {own : Arguments → Run (Option Nat)} {alone : Run Nat}
    {below : String → Option (List String → Run Nat)} {command : List String → Run Nat}
    {name : String} {more : List String}
    (hread : shape.read s.files s.workingDir words = .ok (some { rest := name :: more }))
    (hown : own { rest := name :: more } = pure none) (hbelow : below name = some command) :
    (descend shape own alone below words).run s = (command more).run s := by
  unfold descend withArguments
  rw [Run.run_get_bind, hread]
  dsimp only
  rw [hbelow, hown]
  rfl

/-- The program called with `check` does what the command does. -/
theorem run_check (words : List String) (s : Session) :
    (run ("check" :: words)).run s = (runCheck words).run s := by
  have hprogram : programShape.read s.files s.workingDir ("check" :: words) =
      .ok (some { rest := "check" :: words }) := rfl
  exact run_descend hprogram rfl rfl

/-- The program called with the name of a command below `config` does what that command does. -/
theorem run_config {name : String} {command : List String → Run Nat}
    (hname : configCommand name = some command) (words : List String) (s : Session)
    (hread : configShape.read s.files s.workingDir (name :: words) =
      .ok (some { rest := name :: words })) :
    (run ("config" :: name :: words)).run s = (command words).run s := by
  have hprogram : programShape.read s.files s.workingDir ("config" :: name :: words) =
      .ok (some { rest := "config" :: name :: words }) := rfl
  have hconfig : (runConfig (name :: words)).run s = (command words).run s :=
    run_descend hread rfl hname
  exact (run_descend hprogram rfl rfl).trans hconfig

theorem run_config_init (words : List String) (s : Session) :
    (run ("config" :: "init" :: words)).run s = (runInit words).run s :=
  run_config rfl words s rfl

theorem run_config_validate (words : List String) (s : Session) :
    (run ("config" :: "validate" :: words)).run s = (runValidate words).run s :=
  run_config rfl words s rfl

end ImportAudit.Command
