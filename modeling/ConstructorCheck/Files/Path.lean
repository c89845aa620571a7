/-!
# Paths

A path is a text whose parts are separated by slashes. Empty parts and parts `.` say nothing, except
for a `.` at the very beginning of a relative path.

`parent?`, `join` and `fileName?` work on the text and keep it as it was written; `components` is
the meaning of a path, by which paths are ordered.
-/

namespace ConstructorCheck.Path

/-- One step of a path. -/
inductive Component where
  | root
  | current
  | parent
  | normal (name : String)
deriving DecidableEq, Repr

namespace Component

/-- The place in the order of components; names come last. -/
def rank : Component → Nat
  | root => 0
  | current => 1
  | parent => 2
  | normal _ => 3

/-- The name of a component that is one. -/
def name : Component → String
  | normal s => s
  | _ => ""

instance : Ord Component where
  compare := compareLex (compareOn rank) (compareOn name)

end Component

/-- The component of a part of a path, if it says something. -/
def component? (part : List Char) : Option Component :=
  if part = [] || part = ['.'] then none
  else if part = ['.', '.'] then some .parent
  else some (.normal (String.ofList part))

/-- The beginning of a path that is no component of its body: a root, or a leading `.`. -/
def lead (p : List Char) : List Char :=
  match p with
  | '/' :: _ => ['/']
  | ['.'] => ['.']
  | '.' :: '/' :: _ => ['.']
  | _ => []

/-- The component of the beginning of a path. -/
def leadComponent? (p : List Char) : Option Component :=
  match lead p with
  | ['/'] => some .root
  | ['.'] => some .current
  | _ => none

/-- The steps of a path. -/
def components (path : String) : List Component :=
  let p := path.toList
  (leadComponent? p).toList ++ ((p.drop (lead p).length).splitOn '/').filterMap component?

/-- The order of paths: by their steps, one after the other. -/
def order (p q : String) : Ordering := List.compareLex compare (components p) (components q)

/-- A reversed path body without the parts at its end that say nothing. -/
def trimEnd : List Char → List Char
  | [] => []
  | '/' :: r => trimEnd r
  | ['.'] => []
  | '.' :: '/' :: r => trimEnd r
  | r => r

/-- A reversed path body without its last part. -/
def dropPart (r : List Char) : List Char := trimEnd ((r.dropWhile (· ≠ '/')).drop 1)

/-- The reversed body of a path, without the parts at its end that say nothing. -/
def body (p : List Char) : List Char := trimEnd (p.drop (lead p).length).reverse

/-- A path without its last step; `none` for a root and for the empty path. -/
def parent? (path : String) : Option String :=
  let p := path.toList
  match body p with
  | [] => if leadComponent? p = some .current then some "" else none
  | r => some (String.ofList (lead p ++ (dropPart r).reverse))

/-- A path seen from another; one that begins at the root stays what it is. -/
def join (base path : String) : String :=
  if path.toList.head? = some '/' || base.isEmpty then path
  else if base.toList.getLast? = some '/' then base ++ path
  else base ++ "/" ++ path

/-- The last step of a path, if it is a name. -/
def fileName? (path : String) : Option String :=
  match body path.toList with
  | [] => none
  | r =>
    let part := (r.takeWhile (· ≠ '/')).reverse
    if part = ['.', '.'] then none else some (String.ofList part)

/--
The parts of a file name before and after its last point. A point at the beginning separates
nothing.
-/
def splitName (name : String) : String × Option String :=
  let r := name.toList.reverse
  let before := (r.dropWhile (· ≠ '.')).drop 1
  if before = [] then (name, none)
  else (String.ofList before.reverse, some (String.ofList (r.takeWhile (· ≠ '.')).reverse))

/-- The file name of a path without its extension. -/
def stem? (path : String) : Option String := (fileName? path).map fun n => (splitName n).1

/-- The extension of the file name of a path. -/
def extension? (path : String) : Option String := (fileName? path).bind fun n => (splitName n).2

end ConstructorCheck.Path
