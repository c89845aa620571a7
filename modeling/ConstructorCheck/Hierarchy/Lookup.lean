import ConstructorCheck.Hierarchy.Basic
/-!
# Looking things up in a hierarchy

Records are found by id; classes also by name, and bases and members by name within a class. Every
failed search has a cause of its own.

The last section spells types and constructors as they stand in the source.
-/

namespace ConstructorCheck

/-- Why a search found nothing. -/
inductive LookupError where
  | classNotFound (name : String)
  | baseNotFound (className name : String)
  | memberNotFound (className name : String)
  | unknownClass (id : ClassId)
  | unknownMember (id : MemberId)
  | unknownConstructor (id : ConstructorId)
deriving DecidableEq, Repr

/-- The wording of a failed search. -/
def LookupError.message : LookupError → String
  | .classNotFound name => "no class named '" ++ name ++ "'"
  | .baseNotFound className name => "'" ++ name ++ "' is not a direct base of '" ++ className ++ "'"
  | .memberNotFound className name => "'" ++ className ++ "' has no member named '" ++ name ++ "'"
  | .unknownClass id => "unknown class id ClassId(" ++ id.index.repr ++ ")"
  | .unknownMember id => "unknown member id MemberId(" ++ id.index.repr ++ ")"
  | .unknownConstructor id => "unknown constructor id ConstructorId(" ++ id.index.repr ++ ")"

namespace Hierarchy

variable (h : Hierarchy)

/-! ## By id -/

/-- The class with an id. -/
def class? (id : ClassId) : Option ClassDecl := h.classes[id.index]?

/-- The member with an id. -/
def member? (id : MemberId) : Option MemberDecl := h.members[id.index]?

/-- The constructor with an id. -/
def constructor? (id : ConstructorId) : Option ConstructorDecl := h.constructors[id.index]?

/-- The class with an id, or the error that there is none. -/
def getClass (id : ClassId) : Except LookupError ClassDecl :=
  match h.class? id with
  | some c => .ok c
  | none => .error (.unknownClass id)

/-- The member with an id, or the error that there is none. -/
def getMember (id : MemberId) : Except LookupError MemberDecl :=
  match h.member? id with
  | some m => .ok m
  | none => .error (.unknownMember id)

/-- The constructor with an id, or the error that there is none. -/
def getConstructor (id : ConstructorId) : Except LookupError ConstructorDecl :=
  match h.constructor? id with
  | some c => .ok c
  | none => .error (.unknownConstructor id)

/-! ## What a class owns, in the order of declaration -/

/-- The direct bases of a class. -/
def directBases (id : ClassId) : Except LookupError (List BaseSpecifier) :=
  (h.getClass id).map (·.bases)

/-- The members that a class itself declares. -/
def membersOf (c : ClassDecl) : List MemberDecl := c.members.filterMap h.member?

/-- The constructors that a class itself declares. -/
def constructorsOf (c : ClassDecl) : List ConstructorDecl := c.constructors.filterMap h.constructor?

/-- The members of the class with an id. -/
def ownMembers (id : ClassId) : Except LookupError (List MemberDecl) :=
  (h.getClass id).map h.membersOf

/-- The constructors of the class with an id. -/
def ownConstructors (id : ClassId) : Except LookupError (List ConstructorDecl) :=
  (h.getClass id).map h.constructorsOf

/-! ## By name -/

/-- The class with a name. -/
def classByName (name : String) : Except LookupError ClassId :=
  match h.names.lookup name with
  | some id => .ok id
  | none => .error (.classNotFound name)

/-- The first of some bases that has a name. -/
def findBase (name : String) : List BaseSpecifier → Except LookupError (Option ClassId)
  | [] => .ok none
  | b :: bs => do
    let c ← h.getClass b.base
    if c.name = name then pure (some b.base) else findBase name bs

/-- The direct base of a class with a name: an initializer can name no other base. -/
def resolveBase (derived : ClassId) (name : String) : Except LookupError ClassId := do
  let c ← h.getClass derived
  match ← h.findBase name c.bases with
  | some id => pure id
  | none => throw (.baseNotFound c.name name)

/-- The member of a class with a name. -/
def memberByName (owner : ClassId) (name : String) : Except LookupError MemberId := do
  let c ← h.getClass owner
  match (h.membersOf c).find? fun m => m.name == name with
  | some m => pure m.id
  | none => throw (.memberNotFound c.name name)

/-! ## Spelling -/

/-- A type as it is written in the source. -/
def typeName : TypeRef → String
  | .primitive p => p.keyword
  | .ofClass id => ((h.class? id).map (·.name)).getD "<class>"

/-- A list of types as in a list of arguments. -/
def typeNames (types : List TypeRef) : String := ", ".intercalate (types.map h.typeName)

/-- A parameter of a signature; a default argument shows as `= ...`. -/
def paramName (p : Param) : String :=
  if p.defaulted then h.typeName p.type ++ " = ..." else h.typeName p.type

/-- The signature of a constructor of `owner`. -/
def signature (owner : ClassId) (params : List Param) : String :=
  h.typeName (.ofClass owner) ++ "(" ++ ", ".intercalate (params.map h.paramName) ++ ")"

end Hierarchy

end ConstructorCheck
