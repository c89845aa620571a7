import ConstructorCheck.Files.Path
import ConstructorCheck.Fixture.Basic
import ConstructorCheck.Json.Decode
import ConstructorCheck.Json.Reader
/-!
# Fixtures in JSON

How options and fixtures are written in JSON. Fixtures admit the fields listed here and no others;
options and detailed parameters ignore fields that they do not know.
-/

namespace ConstructorCheck

open Json

/-- The greatest line, column or length that a fixture may give. -/
def maxNumber : Nat := 4294967295

/-- The greatest threshold that options may give. -/
def maxThreshold : Nat := 18446744073709551615

/-- The access level of a keyword. -/
def Access.ofKeyword? (word : String) : Option Access :=
  [Access.publicAccess, .protectedAccess, .privateAccess].find? fun a => a.keyword == word

namespace Options

/-- Options; what is not given has its default. -/
def decode : Decoder Options := fun v => do
  let r ← record? ["parallel", "parallelThreshold", "relatedInformation"] true v
  let parallel ← r.defaulted 0 Value.bool? default.parallel
  let parallelThreshold ← r.defaulted 1 (Value.nat? maxThreshold) default.parallelThreshold
  let relatedInformation ← r.defaulted 2 Value.bool? default.relatedInformation
  pure { parallel, parallelThreshold, relatedInformation }

/-- The options in a JSON text. -/
def ofJson? (text : String) : Option Options := (read text.toList).bind decode

end Options

/-- A place; its length is 1 unless given. -/
def Place.decode : Decoder Place := fun v => do
  let r ← record? ["line", "column", "length"] false v
  let line ← r.required 0 (Value.nat? maxNumber)
  let column ← r.required 1 (Value.nat? maxNumber)
  let length ← r.defaulted 2 (Value.nat? maxNumber) 1
  pure { line, column, length }

/-- An access level; public where it is not given. -/
def Access.decode : Decoder Access := Value.choice? Access.ofKeyword?

/-- A direct base. -/
def BaseSpec.decode : Decoder BaseSpec := fun v => do
  let r ← record? ["name", "access", "at"] false v
  let name ← r.required 0 Value.string?
  let access ← r.defaulted 1 Access.decode .publicAccess
  let place? ← r.optional 2 Place.decode
  pure { name, access, place? }

/-- A data member. -/
def MemberSpec.decode : Decoder MemberSpec := fun v => do
  let r ← record? ["name", "type", "access", "defaultInit", "at"] false v
  let name ← r.required 0 Value.string?
  let type ← r.required 1 Value.string?
  let access ← r.defaulted 2 Access.decode .publicAccess
  let defaultInit? ← r.optional 3 Value.bool?
  let place? ← r.optional 4 Place.decode
  pure { name, type, access, defaultInit?, place? }

namespace ParamSpec

/--
How deep a detailed parameter may nest. It lies inside six other containers, and at most 127 may
lie inside one another.
-/
def maxNesting : Nat := 121

/-- A parameter: the name of its type, or an object with more detail. -/
def decode : Decoder ParamSpec
  | .string s => s.map fun type => ⟨type, false⟩
  | .object fields =>
    if Value.bufferable maxNesting (.object fields) then do
      let r ← record? ["type", "defaulted"] true (.object fields)
      let type ← r.required 0 Value.string?
      let defaulted ← r.defaulted 1 Value.bool? false
      pure { type, defaulted }
    else none
  | _ => none

end ParamSpec

/-- A constructor. -/
def ConstructorSpec.decode : Decoder ConstructorSpec := fun v => do
  let r ← record? ["access", "params", "at"] false v
  let access ← r.defaulted 0 Access.decode .publicAccess
  let params ← r.defaulted 1 (Value.list? ParamSpec.decode) []
  let place? ← r.optional 2 Place.decode
  pure { access, params, place? }

/-- A class. -/
def ClassSpec.decode : Decoder ClassSpec := fun v => do
  let r ← record? ["name", "at", "bases", "members", "constructors", "implicitDefaultAt"] false v
  let name ← r.required 0 Value.string?
  let place? ← r.optional 1 Place.decode
  let bases ← r.defaulted 2 (Value.list? BaseSpec.decode) []
  let members ← r.defaulted 3 (Value.list? MemberSpec.decode) []
  let constructors ← r.defaulted 4 (Value.list? ConstructorSpec.decode) []
  let implicitDefaultPlace? ← r.optional 5 Place.decode
  pure { name, place?, bases, members, constructors, implicitDefaultPlace? }

/-- An entry of an initializer list. -/
def InitializerSpec.decode : Decoder InitializerSpec := fun v => do
  let r ← record? ["name", "args", "at"] false v
  let name ← r.required 0 Value.string?
  let arguments ← r.defaulted 1 (Value.list? Value.string?) []
  let place ← r.required 2 Place.decode
  pure { name, arguments, place }

/-- A constructor definition. -/
def DefinitionSpec.decode : Decoder DefinitionSpec := fun v => do
  let r ← record? ["class", "initializerList", "bodyOpen", "initializers"] false v
  let className ← r.required 0 Value.string?
  let initializerList? ← r.optional 1 Place.decode
  let bodyOpen ← r.required 2 Place.decode
  let initializers ← r.defaulted 3 (Value.list? InitializerSpec.decode) []
  pure { className, initializerList?, bodyOpen, initializers }

/-- An expected finding. -/
def Expectation.decode : Decoder Expectation := fun v => do
  let r ← record? ["kind", "line"] false v
  let kind ← r.required 0 (Value.choice? FindingKind.ofName?)
  let line ← r.required 1 (Value.nat? maxNumber)
  pure { kind, line }

namespace Fixture

/-- A fixture. -/
def decode : Decoder Fixture := fun v => do
  let r ← record? ["description", "source", "options", "classes", "definitions",
    "defaultConstructed", "expected"] false v
  let description ← r.defaulted 0 Value.string? ""
  let source ← r.required 1 Value.string?
  let options ← r.defaulted 2 Options.decode .default
  let classes ← r.required 3 (Value.list? ClassSpec.decode)
  let definitions ← r.defaulted 4 (Value.list? DefinitionSpec.decode) []
  let defaultConstructed ← r.defaulted 5 (Value.list? Value.string?) []
  let expected ← r.defaulted 6 (Value.list? Expectation.decode) []
  pure { description, source, options, classes, definitions, defaultConstructed, expected }

/-- The fixture in a JSON text, or `none` when the text is not one. -/
def ofJson? (text : String) : Option Fixture := (read text.toList).bind decode

/-- The path of the source file of the fixture at a path. -/
def sourcePath (fixture : Fixture) (path : String) : String :=
  Path.join ((Path.parent? path).getD ".") fixture.source

end Fixture

end ConstructorCheck
