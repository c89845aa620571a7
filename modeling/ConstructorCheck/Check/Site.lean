import ConstructorCheck.Overload.Candidate
/-!
# Construction sites

A construction site is one place where a constructor of the class `context` constructs a base or a
member: with the arguments of an initializer, or implicitly when there is no initializer.

* `Hierarchy.targetOf` — the class constructed at a site, when the site fits the hierarchy
* `Hierarchy.gather` — the candidates at a site
-/

namespace ConstructorCheck

/-- What a constructor constructs: a base or a member. -/
inductive Subject where
  | base (id : ClassId)
  | member (id : MemberId)
deriving DecidableEq, Repr

/-- A place where something is constructed. -/
structure Site where
  context : ClassId
  subject : Subject
  /-- The argument types of the initializer; `none` without an initializer. -/
  arguments? : Option (List TypeRef)
  location : Span
deriving DecidableEq, Repr

namespace Site

/-- Whether no initializer stands behind the site. -/
def isImplicit (s : Site) : Bool := s.arguments?.isNone

/-- The argument types of the call; an implicit site has none. -/
def arguments (s : Site) : List TypeRef := s.arguments?.getD []

end Site

/-- Why sites or definitions do not fit a hierarchy. -/
inductive CheckError where
  | lookup (e : LookupError)
  | notADirectBase (className base : String)
  | foreignMember (className member : String)
  | nonClassMember (className member : String)
  | unknownInitializer (className name : String)
  | duplicateInitializer (className name : String)
  | hasDeclaredConstructors (className : String)
deriving DecidableEq, Repr

/-- The wording of a misfit. -/
def CheckError.message : CheckError → String
  | .lookup e => e.message
  | .notADirectBase className base => "'" ++ base ++ "' is not a direct base of '" ++ className ++ "'"
  | .foreignMember className member =>
    "member '" ++ member ++ "' does not belong to '" ++ className ++ "'"
  | .nonClassMember className member =>
    "member '" ++ className ++ "::" ++ member ++ "' is not of class type and has no constructors"
  | .unknownInitializer className name =>
    "initializer '" ++ name ++ "' in a constructor of '" ++ className ++
      "' names neither a direct base nor a member"
  | .duplicateInitializer className name =>
    "'" ++ name ++ "' is initialized more than once in a constructor of '" ++ className ++ "'"
  | .hasDeclaredConstructors className =>
    "'" ++ className ++ "' declares constructors and has no implicitly-defined default constructor"

/-- What can be called at a site. -/
inductive Gathered where
  | candidates (target : ClassId) (cs : List Candidate)
  /-- The site is implicit, and no candidate can be called without arguments. -/
  | missingDefault (target : ClassId) (considered : List ConstructorRef)
deriving DecidableEq, Repr

namespace Hierarchy

variable (h : Hierarchy)

/--
The class constructed at a site. A base has to be a direct base of the context, a member has to
belong to the context and to be of class type.
-/
def targetOf (s : Site) : Except CheckError ClassId := do
  let context ← (h.getClass s.context).mapError .lookup
  match s.subject with
  | .base id =>
    if context.bases.any fun b => b.base = id then pure id
    else throw (.notADirectBase context.name (h.typeName (.ofClass id)))
  | .member id =>
    let m ← (h.getMember id).mapError .lookup
    if m.owner ≠ s.context then throw (.foreignMember context.name m.name)
    else
      match m.type.class? with
      | some target => pure target
      | none => throw (.nonClassMember context.name m.name)

/-- The candidates at a site. -/
def gather (s : Site) : Except CheckError Gathered := do
  let target ← h.targetOf s
  let cs ← (h.candidatesOf target).mapError .lookup
  if s.isImplicit && !cs.any (·.isDefault) then
    pure (.missingDefault target (cs.map (·.constructor)))
  else pure (.candidates target cs)

end Hierarchy

end ConstructorCheck
