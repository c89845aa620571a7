import ConstructorCheck.Files.Path
/-!
# Access to files

`Files` is what a program may ask about files, in whatever monad the answers come. A `FileError`
says why a question has no answer; `Path.fault?` finds the errors that lie in a path alone, whatever
files there are.
-/

namespace ConstructorCheck

/-- Why a file or a directory cannot be read. -/
inductive FileError where
  | notFound
  | notADirectory
  | isADirectory
  /-- A path, or a name in it, has more bytes than are allowed. -/
  | nameTooLong
  /-- A path contains the character that ends texts on the disk. -/
  | nulByte
  | other (text : String)
deriving DecidableEq, Repr

/-- The wording of a failed access. -/
def FileError.message : FileError → String
  | .notFound => "No such file or directory (os error 2)"
  | .notADirectory => "Not a directory (os error 20)"
  | .isADirectory => "Is a directory (os error 21)"
  | .nameTooLong => "File name too long (os error 36)"
  | .nulByte => "file name contained an unexpected NUL byte"
  | .other text => text

/-- An access that failed: by which path, and why. -/
structure FailedAccess where
  path : String
  cause : FileError
deriving DecidableEq, Repr

/-- What may be asked about files. -/
structure Files (m : Type → Type) where
  isDirectory : String → m Bool
  /-- The paths of all files at or below a path, each beginning with that path. -/
  filesBelow : String → m (Except FailedAccess (List String))
  read : String → m (Except FileError String)

namespace Path

/-- The most bytes that a path may have. -/
def maxBytes : Nat := 4095

/-- The most bytes that a name in a directory may have. -/
def maxNameBytes : Nat := 255

/-- The error of every access by a path, if there is one whatever files there are. -/
def fault? (path : String) : Option FileError :=
  if path.isEmpty then some .notFound
  else if path.toList.contains '\x00' then some .nulByte
  else if maxBytes < path.utf8ByteSize then some .nameTooLong
  else none

end Path

end ConstructorCheck
