import ConstructorCheck.Diagnostic.Record
import ConstructorCheck.Json.Pretty
/-!
# Diagnostics for programs

Diagnostics as a JSON array. The list of notes is left out when it is empty.
-/

namespace ConstructorCheck

open Json

/-- The name of a category in JSON. -/
def Category.name : Category → String
  | .warning => "Warning"
  | .error => "Error"
  | .suggestion => "Suggestion"
  | .message => "Message"

/-- A note as a JSON object. -/
def Note.block (x : Note) : Block :=
  Block.object [("file", .string x.file), ("start", .nat x.start), ("length", .nat x.length),
    ("message_text", .string x.text), ("category", .string x.category.name), ("code", .nat x.code)]

/-- A diagnostic as a JSON object. -/
def Diagnostic.block (d : Diagnostic) : Block :=
  let notes :=
    if d.notes.isEmpty then [] else [("related_information", Block.array (d.notes.map (·.block)))]
  Block.object <|
    [("file", .string d.file), ("start", .nat d.start), ("length", .nat d.length),
      ("message_text", .string d.text), ("category", .string d.category.name),
      ("code", .nat d.code)] ++ notes

/-- Some diagnostics as a JSON array. -/
def diagnosticsJson (ds : List Diagnostic) : String := (Block.array (ds.map (·.block))).text

end ConstructorCheck
