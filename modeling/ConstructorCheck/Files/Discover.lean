import ConstructorCheck.Files.Access
/-!
# Finding fixtures

Fixtures are the files below a directory whose extension is `json`, in the order of their paths. A
filter keeps those whose path contains a text.
-/

namespace ConstructorCheck

/-- Why the fixtures below a directory cannot be found. -/
structure DiscoverError where
  directory : String
  /-- What could not be read, at or below the directory. -/
  failure : FailedAccess
deriving DecidableEq, Repr

/-- The wording, from what was attempted down to what went wrong. -/
def DiscoverError.chain (e : DiscoverError) : List String :=
  ["failed to walk " ++ e.directory,
    "IO error for operation on " ++ e.failure.path ++ ": " ++ e.failure.cause.message,
    e.failure.cause.message]

/-- Whether a text occurs in another. -/
def occursIn (part : List Char) : List Char → Bool
  | [] => part.isEmpty
  | c :: r => part.isPrefixOf (c :: r) || occursIn part r

/-- Whether a path is that of a fixture that is wanted. -/
def isWanted (filter? : Option String) (path : String) : Bool :=
  Path.extension? path = some "json" &&
    match filter? with
    | none => true
    | some part => occursIn part.toList path.toList

/-- The wanted fixtures among some paths, in order. -/
def selectFixtures (filter? : Option String) (paths : List String) : List String :=
  (paths.filter (isWanted filter?)).mergeSort fun p q => (Path.order p q).isLE

/-- The wanted fixtures below a directory. -/
def discoverFixtures {m : Type → Type} [Monad m] (files : Files m) (directory : String)
    (filter? : Option String) : m (Except DiscoverError (List String)) := do
  match ← files.filesBelow directory with
  | .ok paths => pure (.ok (selectFixtures filter? paths))
  | .error failure => pure (.error ⟨directory, failure⟩)

end ConstructorCheck
