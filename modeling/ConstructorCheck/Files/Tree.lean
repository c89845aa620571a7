import ConstructorCheck.Files.Access
/-!
# Files in memory

A `Tree` is a directory held in memory. It answers the same questions as a disk, with the same
errors. `Tree.put` stores a file at a path and makes the directories that the path goes through.

A path is followed part by part, so each part needs a directory to be looked up in: `a/..` leads
nowhere when there is no `a`. Paths may leave the tree; the directories around it exist, but nothing
is known to be in them.
-/

namespace ConstructorCheck

/-- A directory with all that is below it. -/
structure Tree where
  /-- The steps to each file, and its text. -/
  files : List (List String × String)
  /-- The steps to directories that there are beside those that the files need. -/
  directories : List (List String)

namespace Tree

/-- The tree without anything in it. -/
def empty : Tree := ⟨[], []⟩

/-! ## Questions -/

/-- Where a path leads. -/
inductive Place where
  /-- The file or directory at some steps into the tree. -/
  | within (steps : List String)
  /-- A directory around the tree. -/
  | around
deriving DecidableEq, Repr

/-- The directory that a place is in. -/
def Place.parent : Place → Place
  | .within [] => .around
  | .within steps => .within steps.dropLast
  | .around => .around

variable (t : Tree)

/-- The text of the file at some steps. -/
def file? (steps : List String) : Option String := t.files.lookup steps

/-- Whether some steps lead to a directory. The tree itself is one, even when it is empty. -/
def isDirectoryAt (steps : List String) : Bool :=
  steps.isEmpty || t.directories.any (steps.isPrefixOf ·) ||
    t.files.any fun f => steps.isPrefixOf f.1 && f.1 != steps

/-- Whether there is a directory at a place. -/
def isDirectoryAtPlace : Place → Bool
  | .within steps => t.isDirectoryAt steps
  | .around => true

/-- The file or directory of some name in a directory. -/
def child? (here : Place) (name : String) : Option Place :=
  match here with
  | .around => none
  | .within steps =>
    let next := steps ++ [name]
    if (t.file? next).isSome || t.isDirectoryAt next then some (.within next) else none

/-- The place to which the parts of a path lead from a place, going through them one by one. -/
def follow (here : Place) : List String → Except FileError Place
  | [] => .ok here
  | part :: parts =>
    if !t.isDirectoryAtPlace here then .error .notADirectory
    else if part = "" || part = "." then follow here parts
    else if part = ".." then follow here.parent parts
    else if Path.maxNameBytes < part.utf8ByteSize then .error .nameTooLong
    else
      match t.child? here part with
      | some next => follow next parts
      | none => .error .notFound

/-- The place to which a path leads. -/
def resolve (path : String) : Except FileError Place :=
  match Path.fault? path with
  | some e => .error e
  | none =>
    t.follow (if path.toList.head? = some '/' then .around else .within [])
      ((path.toList.splitOn '/').map String.ofList)

/-- Whether a path leads to a directory. -/
def isDirectory (path : String) : Bool :=
  match t.resolve path with
  | .ok place => t.isDirectoryAtPlace place
  | .error _ => false

/-- The steps that lead on from some steps to each file below them. -/
def stepsToFiles (steps : List String) : List (List String) :=
  (t.files.filter fun f => steps.isPrefixOf f.1).map fun f => f.1.drop steps.length

/-- The steps that lead on from some steps to directories, each directory being on the way. -/
def stepsToDirectories (steps : List String) : List (List String) :=
  (t.stepsToFiles steps).map List.dropLast ++
    (t.directories.filter (steps.isPrefixOf ·)).map (·.drop steps.length)

/-- The paths met when going some steps from a path, that path among them. -/
def pathsAlong (path : String) : List String → List String
  | [] => [path]
  | step :: steps => path :: pathsAlong (Path.join path step) steps

/--
The paths of all files at or below a path. Directories are read by their paths, so the first one
whose path has become too long is an error; the paths of files are only written down.
-/
def filesBelow (path : String) : Except FailedAccess (List String) :=
  match t.resolve path with
  | .error cause => .error ⟨path, cause⟩
  | .ok .around => .ok []
  | .ok (.within steps) =>
    if (t.file? steps).isSome then .ok [path]
    else
      let directories := (t.stepsToDirectories steps).flatMap (pathsAlong path)
      match directories.findSome? fun p => (Path.fault? p).map (FailedAccess.mk p) with
      | some failure => .error failure
      | none => .ok ((t.stepsToFiles steps).map fun rest => rest.foldl Path.join path)

/-- The text of the file to which a path leads. -/
def read (path : String) : Except FileError String :=
  match t.resolve path with
  | .error e => .error e
  | .ok .around => .error .isADirectory
  | .ok (.within steps) =>
    match t.file? steps with
    | some text => .ok text
    | none => .error .isADirectory

/-- The questions, answered by the tree. -/
def asFiles : Files Id := ⟨fun p => t.isDirectory p, fun p => t.filesBelow p, fun p => t.read p⟩

/-! ## Storing files -/

/-- The steps after one more part of a path. -/
def advance (steps : List String) (part : String) : List String :=
  if part = "" || part = "." then steps
  else if part = ".." then steps.dropLast
  else steps ++ [part]

/-- The steps after each of some parts of a path. -/
def stops (steps : List String) : List String → List (List String)
  | [] => []
  | part :: parts => advance steps part :: stops (advance steps part) parts

/--
Stores a file at a path, in place of one that was there. All that the path goes through on the way
becomes a directory, also what it leaves again by `..`.
-/
def put (path text : String) : Tree :=
  let reached := stops [] ((path.toList.splitOn '/').map String.ofList)
  let file := reached.getLastD []
  { files := t.files.filter (·.1 != file) ++ [(file, text)]
    directories := t.directories ++ reached.dropLast.filter (!·.isPrefixOf file) }

/-- The tree of some files, stored one after the other. -/
def ofList (files : List (String × String)) : Tree :=
  files.foldl (fun t f => t.put f.1 f.2) empty

end Tree

end ConstructorCheck
