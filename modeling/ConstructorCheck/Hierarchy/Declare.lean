import ConstructorCheck.Hierarchy.Derivation
/-!
# Declarations

The operations that build a hierarchy. Each checks what it is given and either returns the extended
hierarchy or the reason for refusing; a refused declaration leaves the hierarchy as it was. The
checks of an operation are made in the order in which they are written.

A chain of bases may have at most `maxDepth` edges, so whoever walks a hierarchy needs little room.
-/

namespace ConstructorCheck

/-- The greatest number of edges in a chain of bases. -/
def maxDepth : Nat := 256

/-- Why a declaration is refused. -/
inductive HierarchyError where
  | duplicateClass (name : String)
  | duplicateMember (className member : String)
  | duplicateConstructor (className signature : String)
  | duplicateBase (className base : String)
  | selfInheritance (className : String)
  | circularInheritance (className base : String)
  | hierarchyTooDeep (className : String) (limit : Nat)
  | defaultArgumentNotTrailing (className : String)
  | lookup (e : LookupError)
deriving DecidableEq, Repr

/-- The wording of a refusal. -/
def HierarchyError.message : HierarchyError → String
  | .duplicateClass name => "class '" ++ name ++ "' is already declared"
  | .duplicateMember className member =>
    "class '" ++ className ++ "' already has a member named '" ++ member ++ "'"
  | .duplicateConstructor className signature =>
    "class '" ++ className ++ "' already declares constructor '" ++ signature ++ "'"
  | .duplicateBase className base =>
    "class '" ++ className ++ "' lists '" ++ base ++ "' as a direct base more than once"
  | .selfInheritance className => "class '" ++ className ++ "' cannot inherit from itself"
  | .circularInheritance className base =>
    "making '" ++ base ++ "' a base of '" ++ className ++ "' would create an inheritance cycle"
  | .hierarchyTooDeep className limit =>
    "inheritance chain through '" ++ className ++ "' exceeds " ++ limit.repr ++ " levels"
  | .defaultArgumentNotTrailing className =>
    "constructor of '" ++ className ++ "' has a parameter without a default after a defaulted one"
  | .lookup e => e.message

namespace Hierarchy

variable (h : Hierarchy)

/-- The class with an id, for a declaration that needs it. -/
def declaredClass (id : ClassId) : Except HierarchyError ClassDecl :=
  match h.class? id with
  | some c => .ok c
  | none => .error (.lookup (.unknownClass id))

/-- Changes the record of one class. -/
def modifyClass (id : ClassId) (f : ClassDecl → ClassDecl) : Hierarchy :=
  { h with classes := h.classes.modify id.index f }

/-- Whether a type is a scalar or a recorded class. -/
def knowsType : TypeRef → Bool
  | .primitive _ => true
  | .ofClass id => id.index < h.classes.length

/-- The first class among some types that is not recorded. -/
def firstUnknown? (types : List TypeRef) : Option ClassId :=
  (types.find? fun t => !h.knowsType t).bind (·.class?)

/-- Declares a class. Until it is told otherwise, its implicit default point is `span`. -/
def declareClass (name : String) (span : Span) : Except HierarchyError (ClassId × Hierarchy) :=
  if (h.names.lookup name).isSome then .error (.duplicateClass name)
  else
    let id : ClassId := ⟨h.classes.length⟩
    .ok (id, { h with
      classes := h.classes ++ [⟨id, name, span, span, [], [], []⟩]
      names := (name, id) :: h.names })

/-- Says where the work of the implicitly defined default constructor is reported. -/
def setImplicitDefaultPoint (id : ClassId) (point : Span) : Except HierarchyError Hierarchy := do
  let _ ← h.declaredClass id
  pure (h.modifyClass id fun c => { c with implicitDefaultPoint := point })

/-- Whether a further edge from `derived` to `base` would make some chain of bases too long. -/
def exceedsDepth (derived base : ClassId) : Bool :=
  match h.depthAbove base, h.depthBelow derived with
  | some above, some below => maxDepth < above + 1 + below
  | _, _ => true

/-- Adds `base` to the end of the direct bases of `derived`. -/
def addBase (derived base : ClassId) (access : Access) (span : Span) :
    Except HierarchyError Hierarchy := do
  let d ← h.declaredClass derived
  let b ← h.declaredClass base
  if derived = base then
    .error (.selfInheritance d.name)
  else if d.bases.any fun s => s.base = base then
    .error (.duplicateBase d.name b.name)
  else if h.isDerivedFrom base derived then
    .error (.circularInheritance d.name b.name)
  else if h.exceedsDepth derived base then
    .error (.hierarchyTooDeep d.name maxDepth)
  else
    .ok (h.modifyClass derived fun c => { c with bases := c.bases ++ [⟨base, access, span⟩] })

/--
Adds a data member. When nothing is said about default initialization, members of class type have
it and scalars do not.
-/
def addMember (owner : ClassId) (name : String) (type : TypeRef) (access : Access)
    (defaultInit? : Option Bool) (span : Span) : Except HierarchyError (MemberId × Hierarchy) := do
  let c ← h.declaredClass owner
  if (h.membersOf c).any fun m => m.name == name then
    .error (.duplicateMember c.name name)
  else
    match h.firstUnknown? [type] with
    | some id => .error (.lookup (.unknownClass id))
    | none =>
      let id : MemberId := ⟨h.members.length⟩
      let defaultInit := defaultInit?.getD type.class?.isSome
      let extended : Hierarchy :=
        { h with members := h.members ++ [⟨id, owner, name, type, access, defaultInit, span⟩] }
      .ok (id, extended.modifyClass owner fun c => { c with members := c.members ++ [id] })

/-- Two constructors clash when their parameters have the same types, defaulted or not. -/
def sameTypes (ps qs : List Param) : Bool := ps.map (·.type) = qs.map (·.type)

/-- Adds a constructor. -/
def addConstructor (owner : ClassId) (params : List Param) (access : Access) (span : Span) :
    Except HierarchyError (ConstructorId × Hierarchy) := do
  let c ← h.declaredClass owner
  match h.firstUnknown? (params.map (·.type)) with
  | some id => .error (.lookup (.unknownClass id))
  | none =>
    if !defaultsTrail params then
      .error (.defaultArgumentNotTrailing c.name)
    else if (h.constructorsOf c).any fun k => sameTypes k.params params then
      .error (.duplicateConstructor c.name (h.signature owner params))
    else
      let id : ConstructorId := ⟨h.constructors.length⟩
      let extended : Hierarchy :=
        { h with constructors := h.constructors ++ [⟨id, owner, params, access, span⟩] }
      .ok (id, extended.modifyClass owner fun c => { c with constructors := c.constructors ++ [id] })

end Hierarchy

end ConstructorCheck
