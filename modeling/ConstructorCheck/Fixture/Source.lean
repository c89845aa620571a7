import ConstructorCheck.Fixture.Basic
import ConstructorCheck.Text.LineMap
/-!
# Source files

A source file turns the places of a fixture into spans, and offsets back into line numbers.

A column past the end of its line counts as the end of the line. A place fails when it does not
count from 1, when there is no such line, or when its end is not an offset any more.
-/

namespace ConstructorCheck

/-- A named text. -/
structure SourceFile where
  name : String
  text : List Char
deriving DecidableEq, Repr

/-- Why a place has no span. -/
inductive PlaceError where
  | notCountedFromOne (file : String) (line column : Nat)
  | pastEnd (file : String) (line lineCount : Nat)
  | tooLong (file : String) (length line column : Nat)
deriving DecidableEq, Repr

/-- The wording of a failed place. -/
def PlaceError.message : PlaceError → String
  | .notCountedFromOne file line column =>
    file ++ ": locations are 1-based, got " ++ line.repr ++ ":" ++ column.repr
  | .pastEnd file line lineCount =>
    file ++ ": line " ++ line.repr ++ " is past the end of the file (" ++ lineCount.repr ++ " lines)"
  | .tooLong file length line column =>
    file ++ ": length " ++ length.repr ++ " at " ++ line.repr ++ ":" ++ column.repr ++
      " overflows the file offset"

namespace SourceFile

variable (f : SourceFile)

/-- The lines of the text. -/
def lines : Text.LineMap := Text.LineMap.build f.text

/-- The span of a place. -/
def span (p : Place) : Except PlaceError Span :=
  if p.line = 0 ∨ p.column = 0 then .error (.notCountedFromOne f.name p.line p.column)
  else
    match f.lines.offsetAt? ⟨p.line - 1, p.column - 1⟩ f.text with
    | none => .error (.pastEnd f.name p.line f.lines.lineCount)
    | some start =>
      if start + p.length ≤ maxOffset then .ok ⟨0, start, start + p.length⟩
      else .error (.tooLong f.name p.length p.line p.column)

/-- The span of a place that may be missing. -/
def spanOrUnknown : Option Place → Except PlaceError Span
  | none => .ok .unknown
  | some p => f.span p

/-- The line of an offset, counted from 1. -/
def lineOf (offset : Nat) : Nat := (f.lines.positionAt offset f.text).line + 1

end SourceFile

end ConstructorCheck
