import ConstructorCheck.Fixture.Source
import ConstructorCheck.Report.Style
/-!
# Snippets

A snippet shows the line of a source in which a range of bytes starts, and below it underlines the
range as far as it lies in that line. Tabs take four columns, all other characters one.

The number of the line comes from the line map, its text from the lines as they are displayed,
which end with `\n` or `\r\n` only.
-/

namespace ConstructorCheck.Report

/-- The lines of a text as they are displayed, without their terminators. -/
def displayLines : List Char → List (List Char)
  | [] => []
  | c :: r =>
    if c = '\n' then [] :: displayLines r
    else if c = '\r' ∧ r.head? = some '\n' then displayLines r
    else
      match displayLines r with
      | [] => [[c]]
      | l :: ls => (c :: l) :: ls

/-- The part of a text after its last newline. -/
def afterLastNewline (t : List Char) : List Char := (t.reverse.takeWhile (· ≠ '\n')).reverse

/-- The columns that a character takes. -/
def columnWidth (c : Char) : Nat := if c = '\t' then 4 else 1

/--
The marks below a line whose first character is at `offset`: blanks before `start`, tildes from
there on, nothing from `stop` on.
-/
def marks (start stop : Nat) : Nat → List Char → List Char
  | _, [] => []
  | offset, c :: r =>
    if stop ≤ offset then []
    else
      List.replicate (columnWidth c) (if offset < start then ' ' else '~') ++
        marks start stop (offset + c.utf8Size) r

/-- The marks below a line, with one tilde at the end when they hold none. -/
def underline (start stop lineStart : Nat) (line : List Char) : List Char :=
  let ms := marks start stop lineStart line
  if ms.contains '~' then ms else ms ++ ['~']

/-- A number, at least three characters wide. -/
def padded (n : Nat) : String :=
  let ds := n.repr.toList
  String.ofList (List.replicate (3 - ds.length) ' ' ++ ds)

end ConstructorCheck.Report

namespace ConstructorCheck.SourceFile

open Report

variable (f : SourceFile)

/-- The part of the text before an offset; an offset past the end counts as the end. -/
def before (offset : Nat) : List Char := Text.slice 0 (min offset (Text.byteLength f.text)) f.text

/-- The part of a line before an offset in it. -/
def lineBefore (offset : Nat) : List Char := afterLastNewline (f.before offset)

/-- Whether an offset lies inside a character. -/
def splitsCharacter (offset : Nat) : Bool :=
  !Text.isBoundary (min offset (Text.byteLength f.text)) f.text

/-- The file, line and column of an offset. -/
def location (offset : Nat) : String :=
  f.name ++ ":" ++ (f.lineOf offset).repr ++ ":" ++ ((f.lineBefore offset).length + 1).repr

/-- The text of the line of an offset. -/
def shownLine? (offset : Nat) : Option (List Char) :=
  (displayLines f.text)[f.lineOf offset - 1]?

/-- The underline of a range of bytes below the line in which it starts. -/
def underlineAt (start length : Nat) (line : List Char) : List Char :=
  let lineStart := start - Text.byteLength (f.lineBefore start)
  underline start (min (start + length) maxOffset) lineStart line

/-- The line in which a range of bytes starts, underlined; nothing for an empty range. -/
def snippet (start length : Nat) : List Fragment :=
  if length = 0 then []
  else
    match f.shownLine? start with
    | none => []
    | some line =>
      [.plain ("\n  " ++ padded (f.lineOf start) ++ "   " ++ String.ofList line ++ "\n        "),
        .styled .red (String.ofList (f.underlineAt start length line))]

end ConstructorCheck.SourceFile
