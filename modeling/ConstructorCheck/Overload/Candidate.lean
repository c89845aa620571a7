import ConstructorCheck.Hierarchy.Lookup
/-!
# Candidates

The constructors with which a class can be constructed: those it declares, or the implicit default
constructor when it declares none.
-/

namespace ConstructorCheck

/-- A declared constructor, or the implicit default constructor of a class. -/
inductive ConstructorRef where
  | declared (id : ConstructorId)
  | implicit (id : ClassId)
deriving DecidableEq, Repr

namespace ConstructorRef

/-- Declared constructors come before implicit ones. -/
def sort : ConstructorRef → Nat
  | declared _ => 0
  | implicit _ => 1

/-- The number of the constructor, or of the class of an implicit one. -/
def index : ConstructorRef → Nat
  | declared id => id.index
  | implicit id => id.index

instance : Ord ConstructorRef where
  compare := compareLex (compareOn sort) (compareOn index)

end ConstructorRef

/-- A constructor that a call may choose. -/
structure Candidate where
  constructor : ConstructorRef
  declaring : ClassId
  access : Access
  params : List Param
deriving DecidableEq, Repr

/-- Whether a candidate can be called without arguments. -/
def Candidate.isDefault (c : Candidate) : Bool := requiredArity c.params == 0

/-- A declared constructor as a candidate of a class. -/
def ConstructorDecl.candidate (k : ConstructorDecl) (declaring : ClassId) : Candidate :=
  ⟨.declared k.id, declaring, k.access, k.params⟩

/-- The implicit default constructor of a class. -/
def Candidate.implicitDefault (id : ClassId) : Candidate :=
  ⟨.implicit id, id, .publicAccess, []⟩

/-- The candidates of a class, in the order of declaration. -/
def Hierarchy.candidatesOf (h : Hierarchy) (id : ClassId) : Except LookupError (List Candidate) :=
  (h.ownConstructors id).map fun ks =>
    if ks.isEmpty then [Candidate.implicitDefault id] else ks.map (·.candidate id)

end ConstructorCheck
