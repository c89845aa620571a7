import ConstructorCheck.CommandLine.Arguments
import ConstructorCheck.Files.Discover
import ConstructorCheck.Fixture.Decode
import ConstructorCheck.Fixture.Outcome
import ConstructorCheck.Report.Json
import ConstructorCheck.Report.Reporter
/-!
# The command line

Runs all fixtures below a directory and prints what became of each: a line with its name, and
details for those that failed. The run ends at the first fixture that cannot be run.

Everything here works in any monad that can answer questions about files, so the program is the
same on a disk and in memory.
-/

namespace ConstructorCheck.CommandLine

open Report

/-- What a run leaves behind. -/
structure Ending where
  exit : Nat
  stdout : String
  stderr : String
deriving DecidableEq, Repr

/-- The settings that decide about colours. -/
structure ColorSettings where
  /-- The value of the setting that asks for colours everywhere. -/
  force? : Option String
  /-- The value of the setting that asks for no colours. -/
  suppress? : Option String
  /-- The value of the setting that asks for colours on a terminal. -/
  allow? : Option String
  /-- Whether the output is a terminal. -/
  terminal : Bool
deriving DecidableEq, Repr

/-- Whether to print colours; a flag against them wins. -/
def ColorSettings.enabled (s : ColorSettings) (noColor : Bool) : Bool :=
  if noColor then false
  else if (s.force?.map (· != "0")).getD false then true
  else if s.suppress?.isSome then false
  else (s.allow?.map (· != "0")).getD true && s.terminal

/-- The fixture directory when none is named. -/
def defaultDirectory : String := "fixtures"

/-- How the program is called. -/
def helpText : String :=
  "Constructor checker conformance runner\n\n" ++
  "Usage: ctorck-conformance [OPTIONS] [FIXTURES]\n\n" ++
  "Arguments:\n  [FIXTURES]  Fixture directory\n\n" ++
  "Options:\n" ++
  "      --filter <FILTER>  Only run fixtures whose path contains this text\n" ++
  "  -v, --verbose          Print every diagnostic, not only those of failing fixtures\n" ++
  "      --no-color         Disable colored output\n" ++
  "      --json             Print reported diagnostics as JSON instead of text\n" ++
  "  -h, --help             Print help\n"

/-- The ending of a refused command line. -/
def UsageError.ending : UsageError → Ending
  | .displayHelp => ⟨0, helpText, ""⟩
  | _ => ⟨2, "", "error: invalid arguments\n\nFor more information, try '--help'.\n"⟩

/-- The causes of an error, one to a line. -/
def causeLines : List String → String
  | [] => ""
  | [cause] => "\n\nCaused by:\n    " ++ cause
  | causes =>
    "\n\nCaused by:" ++
      String.join (causes.zipIdx.map fun p => "\n    " ++ p.2.repr ++ ": " ++ p.1)

/-- The text of an error, from what was attempted down to what went wrong. -/
def errorText : List String → String
  | [] => "Error"
  | outermost :: causes => "Error: " ++ outermost ++ causeLines causes ++ "\n"

/-- Why a path cannot serve as the fixture directory, if it cannot. -/
def validateDirectory (isDirectory : Bool) (path : String) : Option String :=
  if isDirectory then none else some ("fixture directory " ++ path ++ " does not exist")

/-! ## One fixture -/

/-- Runs the fixture at a path. -/
def runFixture {m : Type → Type} [Monad m] (files : Files m) (path : String) :
    m (Except (List String) Outcome) := do
  match ← files.read path with
  | .error e => pure (.error ["failed to read fixture " ++ path, e.message])
  | .ok text =>
    match Fixture.ofJson? text with
    | none => pure (.error ["failed to parse fixture " ++ path])
    | some fixture =>
      let sourcePath := fixture.sourcePath path
      match ← files.read sourcePath with
      | .error e => pure (.error ["failed to read source " ++ sourcePath, e.message])
      | .ok source =>
        let name := (Path.stem? path).getD path
        let file : SourceFile := ⟨(Path.fileName? sourcePath).getD "", source.toList⟩
        pure ((fixture.run name file).mapError (·.chain))

/-- A line about an expectation and what became of it. -/
def expectationLine (label : String) (x : Expectation) : String :=
  "  " ++ label ++ " " ++ x.kind.name ++ " on line " ++ x.line.repr ++ "\n"

/-- The diagnostics of an outcome; `none` when a place cannot be shown. -/
def diagnosticsText (asJson color : Bool) (o : Outcome) : Option String :=
  let ds := o.reported.map (·.diagnostic)
  if asJson then some (diagnosticsJson ds ++ "\n")
  else if ds.isEmpty then some ""
  else ((Reporter.mk [o.source]).render? color ds).map (· ++ "\n\n")

/-- All that is printed about an outcome below its first line. -/
def details (asJson color : Bool) (o : Outcome) : Option String :=
  (diagnosticsText asJson color o).map fun shown =>
    (if o.description.isEmpty then ""
      else paint color [.plain "  ", .styled .dimmed o.description, .plain "\n"]) ++
    String.join (o.missing.map (expectationLine "missing   ")) ++
    String.join (o.unexpected.map (expectationLine "unexpected")) ++ shown

/-- The line that says whether a fixture passed. -/
def statusLine (color : Bool) (o : Outcome) : String :=
  paint color
    [if o.passed then .styled .green "PASS" else .styled .boldRed "FAIL",
      .plain (" " ++ o.name ++ "\n")]

/-- All that is printed about an outcome. -/
def outcomeText (a : Arguments) (color : Bool) (o : Outcome) : Option String :=
  let status := statusLine color o
  if !o.passed || a.has .verbose then (details (a.has .json) color o).map (status ++ ·)
  else some status

/-! ## All fixtures -/

/-- The last lines of a run. -/
def summary (color : Bool) (total failed : Nat) : String :=
  let text := (total - failed).repr ++ " passed, " ++ failed.repr ++ " failed, " ++ total.repr ++
    " total"
  paint color
    [.plain "\n", .styled (if failed = 0 then .green else .red) text, .plain "\n"]

/-- Runs fixtures one after the other; `printed` and `failed` tell about those before. -/
def runFixtures {m : Type → Type} [Monad m] (files : Files m) (a : Arguments) (color : Bool)
    (total : Nat) (printed : String) (failed : Nat) : List String → m Ending
  | [] => pure ⟨if failed = 0 then 0 else 1, printed ++ summary color total failed, ""⟩
  | path :: paths => do
    match ← runFixture files path with
    | .error chain => pure ⟨1, printed, errorText chain⟩
    | .ok o =>
      match outcomeText a color o with
      | none => pure ⟨101, printed ++ statusLine color o, "a place lies inside a character\n"⟩
      | some text =>
        runFixtures files a color total (printed ++ text) (if o.passed then failed else failed + 1)
          paths

/-- Runs what some arguments ask for. -/
def runArguments {m : Type → Type} [Monad m] (files : Files m) (settings : ColorSettings)
    (a : Arguments) : m Ending := do
  let directory := a.fixtures?.getD defaultDirectory
  match validateDirectory (← files.isDirectory directory) directory with
  | some text => pure ⟨1, "", errorText [text]⟩
  | none =>
    match ← discoverFixtures files directory a.filter? with
    | .error e => pure ⟨1, "", errorText e.chain⟩
    | .ok [] => pure ⟨1, "", errorText ["no fixtures found under " ++ directory]⟩
    | .ok paths =>
      let color := settings.enabled (a.has .noColor)
      runFixtures files a color paths.length "" 0 paths

/-- Runs the program with the given arguments. -/
def run {m : Type → Type} [Monad m] (files : Files m) (settings : ColorSettings)
    (args : List String) : m Ending :=
  match Arguments.parse args with
  | .ok a => runArguments files settings a
  | .error e => pure e.ending

end ConstructorCheck.CommandLine
