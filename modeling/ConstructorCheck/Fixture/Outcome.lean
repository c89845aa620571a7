import ConstructorCheck.Check.Batch
import ConstructorCheck.Fixture.Program
/-!
# Running a fixture

`Fixture.run` builds the program of a fixture, checks it, and keeps each finding with the line on
which it is reported. `Outcome.missing` and `Outcome.unexpected` compare the findings with what was
expected: each expectation is met by one finding of its kind on its line, and each finding meets
one expectation.
-/

namespace ConstructorCheck

/-- Why a fixture cannot be run. -/
inductive RunError where
  | model (fixture : String) (e : ModelError)
  | definitions (fixture : String) (e : CheckError)
  | implicitDefaults (fixture : String) (e : CheckError)
deriving DecidableEq, Repr

namespace RunError

/-- The wording, from what was attempted down to what went wrong. -/
def chain : RunError → List String
  | model fixture e => (fixture ++ ": invalid class model") :: e.chain
  | definitions fixture e => [fixture ++ ": invalid constructor definitions", e.message]
  | implicitDefaults fixture e => [fixture ++ ": invalid default-constructed class", e.message]

/-- The wording on one line. -/
def message (e : RunError) : String := ": ".intercalate e.chain

end RunError

/-- A finding with the line on which it is reported, in words. -/
structure Reported where
  kind : FindingKind
  line : Nat
  diagnostic : Diagnostic
deriving DecidableEq, Repr

/-- The kind and line of a reported finding. -/
def Reported.key (r : Reported) : Expectation := ⟨r.kind, r.line⟩

/-- What became of a fixture. -/
structure Outcome where
  name : String
  description : String
  source : SourceFile
  expected : List Expectation
  reported : List Reported
deriving DecidableEq, Repr

/-- A list without its entry at an index; the last entry moves there. -/
def swapRemove {α : Type} (l : List α) (i : Nat) : List α :=
  match l.getLast? with
  | none => []
  | some last => (l.set i last).dropLast

/-- Takes the first partner of an item out of a pool. -/
def takeMatch (pool : List Expectation) (x : Expectation) : Option (List Expectation) :=
  (pool.idxOf? x).map (swapRemove pool)

/-- The wanted items that have no partner of their own in the pool. -/
def unmatched (pool : List Expectation) : List Expectation → List Expectation
  | [] => []
  | w :: ws =>
    match takeMatch pool w with
    | some rest => unmatched rest ws
    | none => w :: unmatched pool ws

namespace Outcome

variable (o : Outcome)

/-- The kinds and lines of all findings. -/
def keys : List Expectation := o.reported.map (·.key)

/-- What was expected and not found. -/
def missing : List Expectation := unmatched o.keys o.expected

/-- What was found and not expected. -/
def unexpected : List Expectation := unmatched o.expected o.keys

/-- Whether exactly the expected was found. -/
def passed : Bool := o.missing.isEmpty && o.unexpected.isEmpty

end Outcome

/-- A finding in words, on the line of its location. -/
def SourceFile.reported (f : SourceFile) (h : Hierarchy) (o : Options) (x : Finding) : Reported :=
  ⟨x.kind, f.lineOf x.location.start, h.diagnostic (fun _ => f.name) o.relatedInformation x⟩

namespace Program

/-- The findings in a program, sorted; errors name the fixture. -/
def findings [ParallelMap] (p : Program) (o : Options) (name : String) :
    Except RunError (List Finding) := do
  let xs ← (p.hierarchy.checkDefinitions o p.definitions).mapError (.definitions name)
  let ys ← (p.hierarchy.checkImplicitDefaults o p.defaultConstructed).mapError
    (.implicitDefaults name)
  pure (Finding.sort (xs ++ ys))

end Program

/-- Checks the program of a fixture against its source. -/
def Fixture.run [ParallelMap] (fixture : Fixture) (name : String) (f : SourceFile) :
    Except RunError Outcome := do
  let p ← (fixture.program f).mapError (.model name)
  let xs ← p.findings fixture.options name
  pure ⟨name, fixture.description, f, fixture.expected,
    xs.map (f.reported p.hierarchy fixture.options)⟩

end ConstructorCheck
