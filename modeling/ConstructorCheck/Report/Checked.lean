import ConstructorCheck.Report.Reporter
/-!
# Diagnostics with offsets of 32 bits

Offsets and line numbers do not grow beyond `maxOffset`, and a text can only be cut between two
characters. Here a reporter works step by step with such numbers: it gives up where a sum is too
large, where a difference would be negative, and where a text would be cut inside a character.
-/

namespace ConstructorCheck

namespace Report

/-- The offset of the last newline of a text. -/
def lastNewline? : List Char → Option Nat
  | [] => none
  | c :: r =>
    match lastNewline? r with
    | some n => some (c.utf8Size + n)
    | none => if c = '\n' then some 0 else none

/-- The marks below a line whose first character is at `offset`; see `marks`. -/
def checkedMarks? (start stop : Nat) : Nat → List Char → Option (List Char)
  | _, [] => some []
  | offset, c :: r =>
    if stop ≤ offset then some []
    else do
      let next ← checkedAdd? offset c.utf8Size
      let ms ← checkedMarks? start stop next r
      pure (List.replicate (columnWidth c) (if offset < start then ' ' else '~') ++ ms)

end Report

namespace SourceFile

open Report

variable (f : SourceFile)

/-- The line of an offset, counted from 1. -/
def checkedLineOf? (offset : Nat) : Option Nat :=
  checkedAdd? (f.lines.positionAt offset f.text).line 1

/-- The part of the text before an offset; an offset past the end counts as the end. -/
def checkedBefore? (offset : Nat) : Option (List Char) :=
  Text.slice? 0 (min offset (Text.byteLength f.text)) f.text

/-- The number of bytes between the start of a line and an offset in it. -/
def checkedColumn? (offset : Nat) : Option Nat := do
  let front ← f.checkedBefore? offset
  let stop := min offset (Text.byteLength f.text)
  match lastNewline? front with
  | none => pure stop
  | some newline => do
    let rest ← checkedSub? stop newline
    checkedSub? rest 1

/-- The file, line and column of an offset. -/
def checkedLocation? (offset : Nat) : Option String := do
  let line ← f.checkedLineOf? offset
  let front ← f.checkedBefore? offset
  pure (f.name ++ ":" ++ line.repr ++ ":" ++ ((afterLastNewline front).length + 1).repr)

/-- The line in which a range of bytes starts, underlined; nothing for an empty range. -/
def checkedSnippet? (start length : Nat) : Option (List Fragment) :=
  if length = 0 then some []
  else do
    let line ← f.checkedLineOf? start
    let index ← checkedSub? line 1
    match (displayLines f.text)[index]? with
    | none => pure []
    | some shown => do
      let column ← f.checkedColumn? start
      let lineStart ← checkedSub? start column
      let ms ← checkedMarks? start (min (start + length) maxOffset) lineStart shown
      let underline := if ms.contains '~' then ms else ms ++ ['~']
      pure [.plain ("\n  " ++ padded line ++ "   " ++ String.ofList shown ++ "\n        "),
        .styled .red (String.ofList underline)]

end SourceFile

namespace Report.Reporter

variable (r : Reporter)

/-- A place in words. -/
def checkedLocation? (file : String) (offset : Nat) : Option String :=
  match r.source? file with
  | none => some file
  | some f => f.checkedLocation? offset

/-- The snippet of a range of bytes, if its file is known. -/
def checkedSnippet? (file : String) (start length : Nat) : Option (List Fragment) :=
  match r.source? file with
  | none => some []
  | some f => f.checkedSnippet? start length

/-- A note, on a line of its own. -/
def checkedNote? (x : Note) : Option (List Fragment) :=
  (r.checkedLocation? x.file x.start).map fun place =>
    [.plain "\n", .styled .dimmed "  Related", .plain (": " ++ place ++ " - " ++ x.text)]

/-- A diagnostic. -/
def checkedDiagnostic? (d : Diagnostic) : Option (List Fragment) := do
  let place ← r.checkedLocation? d.file d.start
  let snippet ← r.checkedSnippet? d.file d.start d.length
  let notes ← d.notes.mapM r.checkedNote?
  pure <|
    [.plain (place ++ " - "), .styled (categoryStyle d.category) (categoryLabel d.category),
      .plain " ", .styled .brightBlue ("E" ++ d.code.repr), .plain (": " ++ d.text)] ++
    snippet ++ notes.flatten

/-- The text of some diagnostics, each beginning a new line. -/
def checkedRender? (color : Bool) (ds : List Diagnostic) : Option String :=
  ((ds.mapM r.checkedDiagnostic?).map fun xs => [Fragment.plain "\n"].intercalate xs).map
    (paint color)

end Report.Reporter

end ConstructorCheck
