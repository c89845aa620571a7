import ConstructorCheck.Diagnostic.Record
import ConstructorCheck.Report.Snippet
/-!
# Diagnostics for people

A reporter knows some sources by name. It shows a diagnostic with its place, its category and
number, its text, a snippet and its notes; of a file that it does not know it shows the name only.

A place inside a character cannot be shown, and then there is no report.
-/

namespace ConstructorCheck.Report

/-- The name of a category. -/
def categoryLabel : Category → String
  | .error => "error"
  | .warning => "warning"
  | .suggestion => "suggestion"
  | .message => "message"

/-- The style of a category. -/
def categoryStyle : Category → Style
  | .error => .boldRed
  | .warning => .boldYellow
  | .suggestion => .boldBlue
  | .message => .boldCyan

/-- The sources that can be shown. -/
structure Reporter where
  sources : List SourceFile

namespace Reporter

variable (r : Reporter)

/-- The source with a name; the last one, if there are several. -/
def source? (name : String) : Option SourceFile := r.sources.reverse.find? fun f => f.name == name

/-- A place in words, or `none` when it lies inside a character. -/
def location? (file : String) (offset : Nat) : Option String :=
  match r.source? file with
  | none => some file
  | some f => if f.splitsCharacter offset then none else some (f.location offset)

/-- The snippet of a range of bytes, if its file is known. -/
def snippet (file : String) (start length : Nat) : List Fragment :=
  match r.source? file with
  | none => []
  | some f => f.snippet start length

/-- A note, on a line of its own. -/
def note? (x : Note) : Option (List Fragment) :=
  (r.location? x.file x.start).map fun place =>
    [.plain "\n", .styled .dimmed "  Related", .plain (": " ++ place ++ " - " ++ x.text)]

/-- A diagnostic. -/
def diagnostic? (d : Diagnostic) : Option (List Fragment) := do
  let place ← r.location? d.file d.start
  let notes ← d.notes.mapM r.note?
  pure <|
    [.plain (place ++ " - "), .styled (categoryStyle d.category) (categoryLabel d.category),
      .plain " ", .styled .brightBlue ("E" ++ d.code.repr), .plain (": " ++ d.text)] ++
    r.snippet d.file d.start d.length ++ notes.flatten

/-- Some diagnostics, each beginning a new line. -/
def fragments? (ds : List Diagnostic) : Option (List Fragment) :=
  (ds.mapM r.diagnostic?).map fun xs => [Fragment.plain "\n"].intercalate xs

/--
The text of some diagnostics, or `none` when a place lies inside a character. Whether there are
colours is decided here, for all fragments: each holds the text that is printed without them.
-/
def render? (color : Bool) (ds : List Diagnostic) : Option String :=
  (r.fragments? ds).map (paint color)

end Reporter

end ConstructorCheck.Report
