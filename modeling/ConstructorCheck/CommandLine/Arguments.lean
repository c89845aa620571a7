/-!
# Command-line arguments

One positional argument, the fixture directory; one option with a value, `--filter`; and four
flags. Each may be given once. After `--` every argument is positional.

A positional argument and the value of the option are taken in when the next argument has been
recognized, or at the end; only then is it seen that they are empty, missing or given twice. An
argument that is not recognized is therefore reported before them.
-/

namespace ConstructorCheck.CommandLine

/-- Why arguments are refused, or that only help is wanted. -/
inductive UsageError where
  | invalidValue
  | argumentConflict
  | tooManyValues
  | unknownArgument
  | displayHelp
deriving DecidableEq, Repr

/-- The flags that may be set. -/
inductive Flag where
  | verbose
  | noColor
  | json
deriving DecidableEq, Repr

/-- What the arguments ask for. -/
structure Arguments where
  /-- The fixture directory, if one is named. -/
  fixtures? : Option String
  filter? : Option String
  flags : List Flag
deriving DecidableEq, Repr

/-- Arguments that ask for nothing. -/
def Arguments.none : Arguments := ⟨.none, .none, []⟩

/-- Whether a flag is set. -/
def Arguments.has (a : Arguments) (f : Flag) : Bool := a.flags.contains f

/-- What has been read and not yet been taken in. -/
inductive Pending where
  | nothing
  | fixtures (value : String)
  /-- The option, with its value once that has been read. -/
  | filter (value? : Option String)
deriving DecidableEq, Repr

/-- A state of reading the arguments. -/
structure Reading where
  taken : Arguments
  pending : Pending
  /-- Whether the one positional argument has been read. -/
  hasPositional : Bool
  /-- Whether `--` has been read. -/
  positionalOnly : Bool
deriving DecidableEq, Repr

namespace Reading

/-- Before the first argument. -/
def start : Reading := ⟨.none, .nothing, false, false⟩

/-- Takes in a value of the option. -/
def takeFilter (r : Reading) (value : String) : Except UsageError Reading :=
  if r.taken.filter?.isSome then .error .argumentConflict
  else .ok { r with taken := { r.taken with filter? := some value }, pending := .nothing }

/-- Takes in what is pending. -/
def settle (r : Reading) : Except UsageError Reading :=
  match r.pending with
  | .nothing => .ok r
  | .fixtures value =>
    if value.isEmpty then .error .invalidValue
    else .ok { r with taken := { r.taken with fixtures? := some value }, pending := .nothing }
  | .filter none => .error .invalidValue
  | .filter (some value) => r.takeFilter value

/-- Sets a flag. -/
def setFlag (r : Reading) (f : Flag) : Except UsageError Reading := do
  let r ← r.settle
  if r.taken.has f then .error .argumentConflict
  else .ok { r with taken := { r.taken with flags := r.taken.flags ++ [f] } }

/-- Shows help, once what is pending has been taken in. -/
def help (r : Reading) : Except UsageError Reading := do
  let _ ← r.settle
  .error .displayHelp

/-- Reads a positional argument. -/
def positional (r : Reading) (value : String) : Except UsageError Reading :=
  if r.hasPositional then .error .unknownArgument
  else do
    let r ← r.settle
    .ok { r with pending := .fixtures value, hasPositional := true }

/-- Reads letters that stand for flags. -/
def letters (r : Reading) : List Char → Except UsageError Reading
  | [] => .ok r
  | 'v' :: cs =>
    match r.setFlag .verbose with
    | .ok r => r.letters cs
    | .error e => .error e
  | 'h' :: _ => r.help
  | _ :: _ => .error .unknownArgument

/-- Reads an option or flag with a long name, and the value written after `=`, if there is one. -/
def long (r : Reading) (name : String) (value? : Option String) : Except UsageError Reading :=
  match name, value? with
  | "filter", none => do
    let r ← r.settle
    .ok { r with pending := .filter none }
  | "filter", some value => do
    let r ← r.settle
    r.takeFilter value
  | "verbose", none => r.setFlag .verbose
  | "no-color", none => r.setFlag .noColor
  | "json", none => r.setFlag .json
  | "help", none => r.help
  | "verbose", some _ | "no-color", some _ | "json", some _ | "help", some _ =>
    .error .tooManyValues
  | _, _ => .error .unknownArgument

/-- The name and the value of an argument such as `name=value`. -/
def splitValue (cs : List Char) : String × Option String :=
  let name := String.ofList (cs.takeWhile (· ≠ '='))
  match cs.dropWhile (· ≠ '=') with
  | [] => (name, none)
  | _ :: value => (name, some (String.ofList value))

/-- Reads an argument that is neither an option nor a flag. -/
def plain (r : Reading) (arg : String) : Except UsageError Reading :=
  match r.pending with
  | .filter none => .ok { r with pending := .filter (some arg) }
  | _ => r.positional arg

/-- Reads one argument. -/
def next (r : Reading) (arg : String) : Except UsageError Reading :=
  if r.positionalOnly then r.positional arg
  else
    match arg.toList with
    | ['-', '-'] => .ok { r with positionalOnly := true }
    | '-' :: '-' :: cs =>
      let (name, value?) := splitValue cs
      r.long name value?
    | '-' :: c :: cs => r.letters (c :: cs)
    | _ => r.plain arg

end Reading

/-- What a list of arguments asks for. -/
def Arguments.parse (args : List String) : Except UsageError Arguments := do
  let r ← args.foldlM Reading.next Reading.start
  let r ← r.settle
  pure r.taken

end ConstructorCheck.CommandLine
