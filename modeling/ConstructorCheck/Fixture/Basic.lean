import ConstructorCheck.Check.Finding
import ConstructorCheck.Check.Options
/-!
# Fixtures

A fixture describes a piece of a program: its classes, its constructor definitions, and the classes
that are default-constructed somewhere. It names the source file in which all of this stands, and
it lists what the checker is expected to find, by kind and line.

Classes and types are given by name. Lines and columns are counted from 1, columns in characters.
-/

namespace ConstructorCheck

/-- A place in the source of a fixture. -/
structure Place where
  line : Nat
  column : Nat
  /-- The number of bytes. -/
  length : Nat
deriving DecidableEq, Repr

/-- A direct base in a fixture. -/
structure BaseSpec where
  name : String
  access : Access
  place? : Option Place
deriving DecidableEq, Repr

/-- A data member in a fixture. -/
structure MemberSpec where
  name : String
  type : String
  access : Access
  defaultInit? : Option Bool
  place? : Option Place
deriving DecidableEq, Repr

/-- A parameter in a fixture. -/
structure ParamSpec where
  type : String
  defaulted : Bool
deriving DecidableEq, Repr

/-- A constructor in a fixture. -/
structure ConstructorSpec where
  access : Access
  params : List ParamSpec
  place? : Option Place
deriving DecidableEq, Repr

/-- A class in a fixture. -/
structure ClassSpec where
  name : String
  place? : Option Place
  bases : List BaseSpec
  members : List MemberSpec
  constructors : List ConstructorSpec
  /-- Where the implicitly defined default constructor is reported. -/
  implicitDefaultPlace? : Option Place
deriving DecidableEq, Repr

/-- An entry of an initializer list in a fixture. -/
structure InitializerSpec where
  name : String
  arguments : List String
  place : Place
deriving DecidableEq, Repr

/-- A constructor definition in a fixture. -/
structure DefinitionSpec where
  className : String
  initializerList? : Option Place
  bodyOpen : Place
  initializers : List InitializerSpec
deriving DecidableEq, Repr

/-- A kind of finding and the line on which it is reported. -/
structure Expectation where
  kind : FindingKind
  line : Nat
deriving DecidableEq, Repr

/-- A description of a piece of a program and of what is wrong with it. -/
structure Fixture where
  description : String
  /-- The source file, seen from the directory of the fixture. -/
  source : String
  options : Options
  classes : List ClassSpec
  definitions : List DefinitionSpec
  defaultConstructed : List String
  expected : List Expectation
deriving DecidableEq, Repr

end ConstructorCheck
