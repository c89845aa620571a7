import ConstructorCheck.Span
import ConstructorCheck.Diagnostic.Message
/-!
# Diagnostics

A diagnostic is a message about a place in a file, with notes about other places. Its number need
not be in the catalogue: records may come from elsewhere.
-/

namespace ConstructorCheck

/-- A remark about a place that belongs to a diagnostic. -/
structure Note where
  file : String
  start : Nat
  length : Nat
  text : String
  category : Category
  code : Nat
deriving DecidableEq, Repr

/-- A message about a place in a file. -/
structure Diagnostic where
  file : String
  start : Nat
  length : Nat
  text : String
  category : Category
  code : Nat
  notes : List Note
deriving DecidableEq, Repr

namespace Diagnostic

/-- The category that the catalogue gives to a number; a number it lacks is a plain message. -/
def noteCategory (code : Nat) : Category := ((Message.ofCode? code).map (·.category)).getD .message

/-- An error about a span, without notes. -/
def errorAt (file : String) (span : Span) (text : String) (code : Nat) : Diagnostic :=
  ⟨file, span.start, span.length, text, .error, code, []⟩

/-- The diagnostic with one more note. -/
def withNote (d : Diagnostic) (file : String) (span : Span) (text : String) (code : Nat) :
    Diagnostic :=
  { d with notes := d.notes ++ [⟨file, span.start, span.length, text, noteCategory code, code⟩] }

@[simp] theorem notes_withNote (d : Diagnostic) (file : String) (span : Span) (text : String)
    (code : Nat) : (d.withNote file span text code).notes =
      d.notes ++ [⟨file, span.start, span.length, text, noteCategory code, code⟩] := rfl

end Diagnostic

end ConstructorCheck
