import ConstructorCheck.Fixture.Source
import ConstructorCheck.Report.Checked
/-!
# Places with offsets of 32 bits

Here the way from a place to its span, and from the text to its line map, is gone step by step with
numbers of 32 bits. It gives up where a sum or a length is too large and where a difference would be
negative. A span that would end too far is no such case: its place is refused.
-/

namespace ConstructorCheck

/-- A number, if it has 32 bits. -/
def checkedNumber? (n : Nat) : Option Nat := if n ≤ maxOffset then some n else none

namespace Text.LineMap

/-- The line map of a text. -/
def checkedBuild? (t : List Char) : Option LineMap := do
  let starts ← (build t).starts.mapM checkedNumber?
  let size ← checkedNumber? (byteLength t)
  pure ⟨starts, size⟩

/-- The offset at which the content of a line ends, if there is such a line. -/
def checkedLineEnd? (m : LineMap) (line : Nat) (t : List Char) : Option (Option Nat) :=
  match m.lineStart? line with
  | none => some none
  | some start => do
    let next ← checkedAdd? line 1
    let content ←
      checkedNumber? (byteLength (trimEnd (slice start ((m.lineStart? next).getD m.size) t)))
    let stop ← checkedAdd? start content
    pure (some stop)

/-- The offset of a line and character, if there is such a line. -/
def checkedOffsetAt? (m : LineMap) (p : Position) (t : List Char) : Option (Option Nat) :=
  match m.lineStart? p.line with
  | none => some none
  | some start => do
    match ← m.checkedLineEnd? p.line t with
    | none => pure none
    | some stop => do
      let bytes ← checkedNumber? (byteLength ((slice start stop t).take p.character))
      let offset ← checkedAdd? start bytes
      pure (some offset)

end Text.LineMap

namespace SourceFile

variable (f : SourceFile)

/-- The span of a place, or why it has none. -/
def checkedSpan? (p : Place) : Option (Except PlaceError Span) :=
  if p.line = 0 ∨ p.column = 0 then some (.error (.notCountedFromOne f.name p.line p.column))
  else do
    let lines ← Text.LineMap.checkedBuild? f.text
    let line ← checkedSub? p.line 1
    let character ← checkedSub? p.column 1
    match ← lines.checkedOffsetAt? ⟨line, character⟩ f.text with
    | none => pure (.error (.pastEnd f.name p.line lines.lineCount))
    | some start =>
      match checkedAdd? start p.length with
      | none => pure (.error (.tooLong f.name p.length p.line p.column))
      | some stop => pure (.ok ⟨0, start, stop⟩)

end SourceFile

end ConstructorCheck
