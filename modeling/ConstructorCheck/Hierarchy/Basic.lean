import ConstructorCheck.Span
/-!
# Class hierarchies

A hierarchy records classes, their data members and their constructors. Each sort of record has a
table of its own, and the position of a record in its table is its id. A class lists the ids of
what it owns; a name index leads from the name of a class to its id.

Ids are numbers without a limit here. What is meant are hierarchies in which each table has fewer
than `2 ^ 32` records, so that an id fits into 32 bits.

Nothing here keeps the tables consistent: that is the work of the declarations in
`ConstructorCheck.Hierarchy.Declare`.
-/

namespace ConstructorCheck

/-! ## Ids -/

/-- The position of a class in the class table. -/
structure ClassId where
  index : Nat
deriving DecidableEq, Repr

/-- The position of a data member in the member table. -/
structure MemberId where
  index : Nat
deriving DecidableEq, Repr

/-- The position of a constructor in the constructor table. -/
structure ConstructorId where
  index : Nat
deriving DecidableEq, Repr

/-! ## Access and types -/

/-- Who may name a member or a constructor, and what a derived class inherits of a base. -/
inductive Access where
  | publicAccess
  | protectedAccess
  | privateAccess
deriving DecidableEq, Repr

/-- The keyword of an access level. -/
def Access.keyword : Access → String
  | .publicAccess => "public"
  | .protectedAccess => "protected"
  | .privateAccess => "private"

/-- The scalar types. -/
inductive Primitive where
  | bool
  | char
  | short
  | int
  | long
  | float
  | double
deriving DecidableEq, Repr

namespace Primitive

/-- All scalar types. -/
def all : List Primitive := [bool, char, short, int, long, float, double]

/-- The keyword of a scalar type. -/
def keyword : Primitive → String
  | bool => "bool"
  | char => "char"
  | short => "short"
  | int => "int"
  | long => "long"
  | float => "float"
  | double => "double"

/-- The scalar type of a keyword. -/
def ofKeyword? (word : String) : Option Primitive := all.find? fun p => p.keyword == word

theorem ofKeyword?_keyword (p : Primitive) : ofKeyword? p.keyword = some p := by
  cases p <;> decide

end Primitive

/-- The type of a member, a parameter or an argument. -/
inductive TypeRef where
  | primitive (p : Primitive)
  | ofClass (id : ClassId)
deriving DecidableEq, Repr

/-- The class that a type names, if it is a class type. -/
def TypeRef.class? : TypeRef → Option ClassId
  | .primitive _ => none
  | .ofClass id => some id

/-! ## Records -/

/-- A parameter. A defaulted one may be left out of a call. -/
structure Param where
  type : TypeRef
  defaulted : Bool
deriving DecidableEq, Repr

/-- One entry of the list of direct bases of a class. -/
structure BaseSpecifier where
  base : ClassId
  access : Access
  span : Span
deriving DecidableEq, Repr

/-- A class. -/
structure ClassDecl where
  id : ClassId
  name : String
  /-- The head of the class. -/
  span : Span
  /-- Where the work of an implicitly defined default constructor is reported. -/
  implicitDefaultPoint : Span
  bases : List BaseSpecifier
  members : List MemberId
  constructors : List ConstructorId
deriving DecidableEq, Repr

/-- A class that declares no constructor has an implicit one: public, without parameters. -/
def ClassDecl.hasImplicitDefault (c : ClassDecl) : Bool := c.constructors.isEmpty

/-- A data member. -/
structure MemberDecl where
  id : MemberId
  owner : ClassId
  name : String
  type : TypeRef
  access : Access
  /-- Whether a constructor without an initializer for this member constructs it by default. -/
  defaultInit : Bool
  span : Span
deriving DecidableEq, Repr

/-! ## Constructors and argument counts -/

/-- The number of arguments that a call has to give: the parameters before the first default. -/
def requiredArity (ps : List Param) : Nat := (ps.takeWhile fun p => !p.defaulted).length

/-- Whether a call may give `n` arguments. -/
def acceptsArity (ps : List Param) (n : Nat) : Bool := requiredArity ps ≤ n && n ≤ ps.length

/-- Whether no parameter without a default follows one with a default. -/
def defaultsTrail (ps : List Param) : Bool :=
  (ps.dropWhile fun p => !p.defaulted).all (·.defaulted)

/-- A constructor. -/
structure ConstructorDecl where
  id : ConstructorId
  owner : ClassId
  params : List Param
  access : Access
  span : Span
deriving DecidableEq, Repr

/-- A default constructor is one that can be called without arguments. -/
def ConstructorDecl.isDefault (c : ConstructorDecl) : Bool := requiredArity c.params == 0

/-! ## The hierarchy -/

/-- All classes with their members and constructors. -/
structure Hierarchy where
  classes : List ClassDecl
  members : List MemberDecl
  constructors : List ConstructorDecl
  /-- The name index of the classes. -/
  names : List (String × ClassId)
deriving DecidableEq, Repr

/-- The hierarchy without any class. -/
def Hierarchy.empty : Hierarchy := ⟨[], [], [], []⟩

end ConstructorCheck
