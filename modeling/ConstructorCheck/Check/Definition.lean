import ConstructorCheck.Check.Site
/-!
# Constructor definitions

A constructor definition constructs the direct bases of its class, in the order of declaration, and
then its members of class type. An entry of the initializer list gives the arguments for one of
them; what has no entry is constructed implicitly. A scalar member needs no constructor, and a
member that is not default-initialized is left alone when it has no entry.

Inside the class, a member hides a base of the same name.
-/

namespace ConstructorCheck

/-- One entry of an initializer list. -/
structure Entry where
  name : String
  arguments : List TypeRef
  span : Span
deriving DecidableEq, Repr

/-- A constructor definition. -/
structure Definition where
  owner : ClassId
  /-- Where the initializer list begins, if there is one. -/
  initializerList? : Option Span
  /-- The brace that opens the body. -/
  bodyOpen : Span
  entries : List Entry
deriving DecidableEq, Repr

/-- Where implicit constructions are reported. -/
def Definition.implicitPoint (d : Definition) : Span := d.initializerList?.getD d.bodyOpen

/-- The definition that the language supplies for a class: no entries, and one place for all. -/
def Definition.implicitDefault (owner : ClassId) (point : Span) : Definition :=
  ⟨owner, none, point, []⟩

namespace Hierarchy

variable (h : Hierarchy)

/-- What an entry initializes: the member with its name, otherwise the direct base. -/
def subjectOf? (owner : ClassId) (name : String) : Option Subject :=
  match h.memberByName owner name with
  | .ok id => some (.member id)
  | .error _ =>
    match h.resolveBase owner name with
    | .ok id => some (.base id)
    | .error _ => none

/--
Finds the subject of each entry. Stops at the first entry that has no subject or repeats one in
`earlier`.
-/
def assignEntries (c : ClassDecl) (owner : ClassId) (earlier : List (Subject × Entry)) :
    List Entry → Except CheckError (List (Subject × Entry))
  | [] => .ok earlier
  | e :: es =>
    match h.subjectOf? owner e.name with
    | none => .error (.unknownInitializer c.name e.name)
    | some s =>
      if earlier.any fun p => p.1 = s then .error (.duplicateInitializer c.name e.name)
      else assignEntries c owner (earlier ++ [(s, e)]) es

/-- The site of a subject: explicit with its entry, otherwise implicit at `point`. -/
def siteOf (owner : ClassId) (point : Span) (assigned : List (Subject × Entry)) (s : Subject) :
    Site :=
  match assigned.lookup s with
  | some e => ⟨owner, s, some e.arguments, e.span⟩
  | none => ⟨owner, s, none, point⟩

/-- Whether a member is constructed, given the entries that are there. -/
def constructsMember (assigned : List (Subject × Entry)) (m : MemberDecl) : Bool :=
  m.type.class?.isSome && ((assigned.lookup (.member m.id)).isSome || m.defaultInit)

/-- The construction sites of a definition: the bases, then the members. -/
def sitesOf (d : Definition) : Except CheckError (List Site) := do
  let c ← (h.getClass d.owner).mapError .lookup
  let assigned ← h.assignEntries c d.owner [] d.entries
  let bases := c.bases.map fun b => Subject.base b.base
  let members := ((h.membersOf c).filter (constructsMember assigned)).map fun m =>
    Subject.member m.id
  pure ((bases ++ members).map (siteOf d.owner d.implicitPoint assigned))

/--
The construction sites of the implicitly defined default constructor, all of them implicit. Only a
class that declares no constructor has one.
-/
def implicitSitesOf (id : ClassId) : Except CheckError (List Site) := do
  let c ← (h.getClass id).mapError .lookup
  if c.hasImplicitDefault then h.sitesOf (.implicitDefault id c.implicitDefaultPoint)
  else throw (.hasDeclaredConstructors c.name)

end Hierarchy

end ConstructorCheck
