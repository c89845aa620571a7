import ConstructorCheck.CommandLine.Run
/-!
# The program

Answers the questions of the command line from the disk, prints what the run leaves behind, and
ends with its exit code.
-/

namespace ConstructorCheck

/-- The error of a failed access to the disk. -/
def diskError (e : IO.Error) : FileError :=
  match e with
  | .noFileOrDirectory .. => .notFound
  | .inappropriateType _ 20 _ => .notADirectory
  | .inappropriateType .. => .isADirectory
  | .invalidArgument _ 36 _ => .nameTooLong
  | e => .other (toString e)

/-- What the disk says to a question about a path. -/
def askDisk {α : Type} (path : String) (question : IO α) : IO (Except FileError α) :=
  match Path.fault? path with
  | some e => pure (.error e)
  | none => try pure (.ok (← question)) catch e => pure (.error (diskError e))

/-- Whether a path leads to a directory on the disk. -/
def isDiskDirectory (path : String) : IO Bool := do
  let place := { ← IO.currentDir with toString := path }
  pure ((← place.metadata).type == .dir)

/-- The names in a directory on the disk, and what they name. -/
def diskEntries (path : String) : IO (List (String × IO.FS.FileType)) := do
  let place := { ← IO.currentDir with toString := path }
  -- the path of an entry may be too long where that of its directory is not
  let directory ← IO.FS.realPath place
  (← place.readDir).toList.mapM fun e => do
    pure (e.fileName, (← (directory / e.fileName).symlinkMetadata).type)

/-- The paths of all files below a directory on the disk. -/
partial def diskFilesBelow (path : String) : IO (Except FailedAccess (List String)) := do
  match ← askDisk path (diskEntries path) with
  | .error cause => pure (.error ⟨path, cause⟩)
  | .ok entries =>
    let below ← entries.mapM fun (name, kind) =>
      match kind with
      | .dir => diskFilesBelow (Path.join path name)
      | .file => pure (.ok [Path.join path name])
      | _ => pure (.ok [])
    pure ((below.mapM id).map List.flatten)

/-- The answers of the disk. -/
def disk : Files IO where
  isDirectory path := do
    match ← askDisk path (isDiskDirectory path) with
    | .ok answer => pure answer
    | .error _ => pure false
  filesBelow path := do
    match ← askDisk path (isDiskDirectory path) with
    | .ok true => diskFilesBelow path
    | .ok false => pure (.ok [path])
    | .error cause => pure (.error ⟨path, cause⟩)
  read path := askDisk path (IO.FS.readFile path)

end ConstructorCheck

open ConstructorCheck in
/-- Runs the program. -/
def main (args : List String) : IO UInt32 := do
  let stdout ← IO.getStdout
  let settings : CommandLine.ColorSettings :=
    { force? := ← IO.getEnv "CLICOLOR_FORCE"
      suppress? := ← IO.getEnv "NO_COLOR"
      allow? := ← IO.getEnv "CLICOLOR"
      terminal := ← stdout.isTty }
  let ending ← CommandLine.run disk settings args
  IO.print ending.stdout
  IO.eprint ending.stderr
  pure (UInt32.ofNat ending.exit)
