import ConstructorCheck.Check.Definition
import ConstructorCheck.Fixture.Source
import ConstructorCheck.Hierarchy.Declare
/-!
# The program of a fixture

`Fixture.program` builds the hierarchy that a fixture describes and resolves the names in its
definitions. All classes are declared first, so that a class may refer to a later one; then each
class in turn gets its bases, members and constructors.
-/

namespace ConstructorCheck

/-- Why a fixture does not describe a program. -/
inductive ModelError where
  | place (e : PlaceError)
  | lookup (e : LookupError)
  | declaration (e : HierarchyError)
  | base (baseName className : String) (e : HierarchyError)
  | constructor (className : String) (e : HierarchyError)
deriving DecidableEq, Repr

/-- The wording, from what was attempted down to what went wrong. -/
def ModelError.chain : ModelError → List String
  | .place e => [e.message]
  | .lookup e => [e.message]
  | .declaration e => [e.message]
  | .base baseName className e => ["base '" ++ baseName ++ "' of '" ++ className ++ "'", e.message]
  | .constructor className e => ["constructor of '" ++ className ++ "'", e.message]

/-- A hierarchy, the constructor definitions, and the classes that are default-constructed. -/
structure Program where
  hierarchy : Hierarchy
  definitions : List Definition
  defaultConstructed : List ClassId
deriving DecidableEq, Repr

namespace Hierarchy

variable (h : Hierarchy)

/-- The class with a name. -/
def namedClass (name : String) : Except ModelError ClassId := (h.classByName name).mapError .lookup

/-- The type with a name: a scalar for a keyword, otherwise a class. -/
def namedType (name : String) : Except ModelError TypeRef :=
  match Primitive.ofKeyword? name with
  | some p => .ok (.primitive p)
  | none => (h.namedClass name).map .ofClass

end Hierarchy

namespace SourceFile

/-- The span of a place. -/
def placeSpan (f : SourceFile) (p : Place) : Except ModelError Span := (f.span p).mapError .place

/-- The span of a place that may be missing. -/
def placeSpanOrUnknown (f : SourceFile) (p? : Option Place) : Except ModelError Span :=
  (f.spanOrUnknown p?).mapError .place

end SourceFile

namespace ClassSpec

variable (f : SourceFile)

/-- Declares a class, still without content. -/
def declare (h : Hierarchy) (c : ClassSpec) : Except ModelError (ClassId × Hierarchy) := do
  let span ← f.placeSpanOrUnknown c.place?
  (h.declareClass c.name span).mapError .declaration

/-- Declares some classes. -/
def declareAll (h : Hierarchy) : List ClassSpec → Except ModelError (List ClassId × Hierarchy)
  | [] => .ok ([], h)
  | c :: cs => do
    let (id, h₁) ← c.declare f h
    let (ids, h₂) ← declareAll h₁ cs
    pure (id :: ids, h₂)

/-- Sets the place of the implicit default constructor, if it is given. -/
def setPoint (id : ClassId) (c : ClassSpec) (h : Hierarchy) : Except ModelError Hierarchy :=
  match c.implicitDefaultPlace? with
  | none => .ok h
  | some p => do
    let point ← f.placeSpan p
    (h.setImplicitDefaultPoint id point).mapError .declaration

/-- Adds one base. -/
def addBase (id : ClassId) (c : ClassSpec) (h : Hierarchy) (b : BaseSpec) :
    Except ModelError Hierarchy := do
  let base ← h.namedClass b.name
  let span ← f.placeSpanOrUnknown b.place?
  (h.addBase id base b.access span).mapError (.base b.name c.name)

/-- Adds one member. -/
def addMember (id : ClassId) (h : Hierarchy) (m : MemberSpec) : Except ModelError Hierarchy := do
  let type ← h.namedType m.type
  let span ← f.placeSpanOrUnknown m.place?
  ((h.addMember id m.name type m.access m.defaultInit? span).mapError .declaration).map (·.2)

/-- The parameter of a specification. -/
def param (h : Hierarchy) (p : ParamSpec) : Except ModelError Param :=
  (h.namedType p.type).map fun type => ⟨type, p.defaulted⟩

/-- Adds one constructor. -/
def addConstructor (id : ClassId) (c : ClassSpec) (h : Hierarchy) (k : ConstructorSpec) :
    Except ModelError Hierarchy := do
  let span ← f.placeSpanOrUnknown k.place?
  let params ← k.params.mapM (param h)
  ((h.addConstructor id params k.access span).mapError (.constructor c.name)).map (·.2)

/-- Gives a declared class its content. -/
def fill (h : Hierarchy) (p : ClassSpec × ClassId) : Except ModelError Hierarchy := do
  let (c, id) := p
  let h₁ ← c.setPoint f id h
  let h₂ ← c.bases.foldlM (c.addBase f id) h₁
  let h₃ ← c.members.foldlM (addMember f id) h₂
  c.constructors.foldlM (c.addConstructor f id) h₃

end ClassSpec

/-- An entry of an initializer list with its names resolved. -/
def InitializerSpec.entry (f : SourceFile) (h : Hierarchy) (i : InitializerSpec) :
    Except ModelError Entry := do
  let arguments ← i.arguments.mapM h.namedType
  let span ← f.placeSpan i.place
  pure ⟨i.name, arguments, span⟩

/-- A constructor definition with its names resolved. -/
def DefinitionSpec.definition (f : SourceFile) (h : Hierarchy) (d : DefinitionSpec) :
    Except ModelError Definition := do
  let owner ← h.namedClass d.className
  let bodyOpen ← f.placeSpan d.bodyOpen
  let initializerList? ← d.initializerList?.mapM f.placeSpan
  let entries ← d.initializers.mapM (InitializerSpec.entry f h)
  pure { owner, initializerList?, bodyOpen, entries }

namespace Fixture

/-- The hierarchy that some class specifications describe. -/
def hierarchy (f : SourceFile) (classes : List ClassSpec) : Except ModelError Hierarchy := do
  let (ids, h) ← ClassSpec.declareAll f .empty classes
  (classes.zip ids).foldlM (ClassSpec.fill f) h

/-- The program that a fixture describes. -/
def program (fixture : Fixture) (f : SourceFile) : Except ModelError Program := do
  let h ← hierarchy f fixture.classes
  let definitions ← fixture.definitions.mapM (DefinitionSpec.definition f h)
  let defaultConstructed ← fixture.defaultConstructed.mapM h.namedClass
  pure ⟨h, definitions, defaultConstructed⟩

end Fixture

end ConstructorCheck
