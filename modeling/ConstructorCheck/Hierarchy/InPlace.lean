import ConstructorCheck.Hierarchy.History
/-!
# Declarations in place

Who builds a hierarchy changes it in place, one table after the other. Nothing takes a change back:
an operation that fails half-way leaves behind what it has changed until then. `InPlace` is such an
operation, and its failure comes with the hierarchy as it stands at that moment.

Each operation makes its checks first. But a new member or constructor goes into its table before
its owner lists it, and `changeClass`, which makes the owner list it, may fail again.
-/

namespace ConstructorCheck

/-- An operation on a hierarchy that is changed in place. -/
abbrev InPlace (α : Type) := EStateM HierarchyError Hierarchy α

namespace InPlace

/-- The class with an id. -/
def getClass (id : ClassId) : InPlace ClassDecl := do
  match (← get).class? id with
  | some c => pure c
  | none => throw (.lookup (.unknownClass id))

/-- Changes the record of one class. -/
def changeClass (id : ClassId) (f : ClassDecl → ClassDecl) : InPlace Unit := do
  let _ ← getClass id
  modify fun h => h.modifyClass id f

/-- Fails when a type names a class that is not recorded. -/
def ensureType : TypeRef → InPlace Unit
  | .primitive _ => pure ()
  | .ofClass id => do
    let _ ← getClass id

/-- Fails at the first of some types that names a class that is not recorded. -/
def ensureTypes : List TypeRef → InPlace Unit
  | [] => pure ()
  | t :: ts => do
    ensureType t
    ensureTypes ts

/-- Declares a class: its name first, then its record. -/
def declareClass (name : String) (span : Span) : InPlace ClassId := do
  let h ← get
  if (h.names.lookup name).isSome then throw (.duplicateClass name)
  else
    let id : ClassId := ⟨h.classes.length⟩
    modify fun h => { h with names := (name, id) :: h.names }
    modify fun h => { h with classes := h.classes ++ [⟨id, name, span, span, [], [], []⟩] }
    pure id

/-- Says where the work of the implicitly defined default constructor is reported. -/
def setImplicitDefaultPoint (id : ClassId) (point : Span) : InPlace Unit :=
  changeClass id fun c => { c with implicitDefaultPoint := point }

/-- Adds `base` to the end of the direct bases of `derived`. -/
def addBase (derived base : ClassId) (access : Access) (span : Span) : InPlace Unit := do
  let d ← getClass derived
  let b ← getClass base
  let h ← get
  if derived = base then
    throw (.selfInheritance d.name)
  else if d.bases.any fun s => s.base = base then
    throw (.duplicateBase d.name b.name)
  else if h.isDerivedFrom base derived then
    throw (.circularInheritance d.name b.name)
  else if h.exceedsDepth derived base then
    throw (.hierarchyTooDeep d.name maxDepth)
  else
    changeClass derived fun c => { c with bases := c.bases ++ [⟨base, access, span⟩] }

/-- Adds a data member: its record first, then its place in the list of the owner. -/
def addMember (owner : ClassId) (name : String) (type : TypeRef) (access : Access)
    (defaultInit? : Option Bool) (span : Span) : InPlace MemberId := do
  let c ← getClass owner
  let h ← get
  if (h.membersOf c).any fun m => m.name == name then
    throw (.duplicateMember c.name name)
  else
    ensureTypes [type]
    let id : MemberId := ⟨h.members.length⟩
    let defaultInit := defaultInit?.getD type.class?.isSome
    modify fun h =>
      { h with members := h.members ++ [⟨id, owner, name, type, access, defaultInit, span⟩] }
    changeClass owner fun c => { c with members := c.members ++ [id] }
    pure id

/-- Adds a constructor: its record first, then its place in the list of the owner. -/
def addConstructor (owner : ClassId) (params : List Param) (access : Access) (span : Span) :
    InPlace ConstructorId := do
  let c ← getClass owner
  ensureTypes (params.map (·.type))
  if !defaultsTrail params then
    throw (.defaultArgumentNotTrailing c.name)
  else
    let h ← get
    let existing ← getClass owner
    if (h.constructorsOf existing).any fun k => Hierarchy.sameTypes k.params params then
      throw (.duplicateConstructor c.name (h.signature owner params))
    else
      let id : ConstructorId := ⟨h.constructors.length⟩
      modify fun h =>
        { h with constructors := h.constructors ++ [⟨id, owner, params, access, span⟩] }
      changeClass owner fun c => { c with constructors := c.constructors ++ [id] }
      pure id

/-- Makes one declaration. -/
def declare : Declaration → InPlace Declared
  | .newClass name span => do
    let id ← declareClass name span
    pure (.ofClass id)
  | .implicitDefaultPoint id point => do
    setImplicitDefaultPoint id point
    pure .nothing
  | .base derived base access span => do
    addBase derived base access span
    pure .nothing
  | .member owner name type access defaultInit? span => do
    let id ← addMember owner name type access defaultInit? span
    pure (.ofMember id)
  | .constructor owner params access span => do
    let id ← addConstructor owner params access span
    pure (.ofConstructor id)

/--
Makes some declarations one after the other, whether the ones before were refused or not: the
answers to all of them and the hierarchy at the end.
-/
def declareAll (h : Hierarchy) :
    List Declaration → List (Except HierarchyError Declared) × Hierarchy
  | [] => ([], h)
  | d :: ds =>
    let (answer, h') : Except HierarchyError Declared × Hierarchy :=
      match (declare d).run h with
      | .ok r h' => (.ok r, h')
      | .error e h' => (.error e, h')
    let (answers, final) := declareAll h' ds
    (answer :: answers, final)

/-- The declarations of a list that are accepted when all of them are made. -/
def accepted (h : Hierarchy) (ds : List Declaration) : List Declaration :=
  ((ds.zip (declareAll h ds).1).filter (·.2.isOk)).map (·.1)

end InPlace

end ConstructorCheck
