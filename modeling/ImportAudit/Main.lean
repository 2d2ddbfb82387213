/-
# ImportAudit.Main — the program.

The program works on a picture of the files around it: what lies below the working directory and
below the paths on the command line, the manifests above them, and the files that settings are
looked for in.  What a run changed in the picture is changed in the files themselves.
-/
import ImportAudit.Command.Program
import Std.Time.Format

namespace ImportAudit.Main

open Files

/-! ## The picture -/

/-- The path of a place. -/
def pathOf (place : Place) : String := "/" ++ "/".intercalate place

/-- The place of an absolute path. -/
def placeOf (path : String) : Place := (Path.ofString path).parts

/-- The place that a path leads to in the end, if it leads to something. -/
def realPlace? (path : String) : IO (Option Place) := do
  try
    let real ← IO.FS.realPath path
    pure (some (placeOf real.toString))
  catch _ => pure none

/-- The picture with what is in a place; of a link, also with what it leads to. -/
def picture (t : Tree) (place : Place) : IO Tree := do
  match ← realPlace? (pathOf place) with
  | none => pure t
  | some real =>
    let t ←
      if ← (IO.FS.realPath (pathOf real) >>= fun p => p.isDir) then pure (t.put real .directory)
      else
        let bytes ← IO.FS.readBinFile (pathOf real)
        pure (t.put real (.file bytes.toList))
    let isLink := real ≠ place && (← realPlace? (pathOf place.dropLast)) = some place.dropLast
    pure (if isLink then t.put place (.link (pathOf real)) else t)

/-- The picture with what is on the way to a place, and with the manifests there. -/
def pictureWay (t : Tree) (place : Place) : IO Tree := do
  let mut t := t
  for n in List.range place.length do
    t ← picture t (place.take n)
    t ← picture t (place.take n ++ [Manifest.fileName])
  picture t place

/-- The picture with all that is in a directory and below it; no link is entered. -/
partial def pictureBelow (t : Tree) (directory : Place) : IO Tree := do
  let path ← IO.FS.realPath (pathOf directory)
  if !(← path.isDir) then return t
  let mut t := t
  for e in ← path.readDir do
    let place := directory ++ [e.fileName]
    t ← picture t place
    if t.entry? place = some .directory then t ← pictureBelow t place
  pure t

/-- The picture with all that a path leads to. -/
def picturePath (t : Tree) (path : String) : IO Tree := do
  let t ← pictureWay t (placeOf path)
  match ← realPlace? path with
  | none => pure t
  | some real => do pictureBelow (← pictureWay t real) real

/-! ## The surroundings of a run -/

/-- The variables of the environment that a run looks at. -/
def variableNames : List String :=
  ["HOME", "NO_IMPLICIT_DEPS_DEV", "NO_IMPLICIT_DEPS_OPTIONAL", "NO_IMPLICIT_DEPS_IGNORE",
    "NO_IMPLICIT_DEPS_OUTPUT_FORMAT", "NO_IMPLICIT_DEPS_LOG_LEVEL"]

/-- The environment, as far as a run looks at it. -/
def environment : IO Environment := do
  let mut env := []
  for name in variableNames do
    if let some text ← IO.getEnv name then env := (name, text) :: env
  pure env

/-- The time. -/
def clock : IO Log.Clock := do
  let now := Std.Time.DateTime.ofTimestamp (← Std.Time.Timestamp.now) .UTC
  let here ← Std.Time.PlainDateTime.now
  pure ⟨now.format "uuuu-MM-dd'T'HH:mm:ss.SSSSSSxxx", here.format "uuuu-MM-dd HH:mm:ss,SSS"⟩

/-- The paths that words of a command line may stand for, seen from a directory. -/
def pathsIn (workingDir : Place) (words : List String) : List String :=
  words.flatMap fun word =>
    [word, ((Command.splitWord word.toList).2).getD ""].filterMap fun text =>
      if text = "" then none
      else if text.toList.head? = some '/' then some text
      else some (pathOf workingDir ++ "/" ++ text)

/-- A session that can see all that a command line may lead to. -/
def sessionFor (words : List String) : IO Session := do
  let workingDir := (← realPlace? ".").getD []
  let environment ← environment
  let mut files ← picturePath {} (pathOf workingDir)
  for path in pathsIn workingDir words do
    files ← picturePath files path
  for path in Settings.locations environment ⟨"/", workingDir⟩ do
    files ← pictureWay files path.parts
  pure { files, workingDir, environment, clock := ← clock }

/-- Changes the files as a run changed the picture of them. -/
def keep (before after : Tree) : IO Unit := do
  for e in after.entries do
    match e with
    | (place, .file bytes) =>
      if before.entry? place ≠ some (.file bytes) then
        IO.FS.writeBinFile (pathOf place) ⟨bytes.toArray⟩
    | _ => pure ()

/-- Runs the program. -/
def runWith (words : List String) : IO UInt32 := do
  let before ← sessionFor words
  let (outcome, after) := (Command.run words).run before
  keep before.files after.files
  (← IO.getStdout).putStr after.output
  (← IO.getStderr).putStr (after.errors ++ String.join (after.log.map (· ++ "\n")))
  match outcome with
  | .ok status => pure status.toUInt32
  | .error f =>
    IO.eprintln (f.kindName ++ ": " ++ f.message)
    pure 1

end ImportAudit.Main

/-- The program. -/
def main (words : List String) : IO UInt32 := ImportAudit.Main.runWith words
