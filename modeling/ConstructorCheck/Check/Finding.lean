import ConstructorCheck.Check.Site
import ConstructorCheck.Diagnostic.Record
/-!
# Findings

A finding says what is wrong at a construction site. `Hierarchy.diagnostic` words it: the message,
and notes on the constructors that it involves.

Findings are ordered by place, then by kind, constructor and target.
-/

namespace ConstructorCheck

/-- What can be wrong at a site. -/
inductive FindingKind where
  | inaccessibleConstructor
  | noViableConstructor
  | ambiguousConstructor
  | missingImplicitDefault
deriving DecidableEq, Repr

namespace FindingKind

/-- All kinds, in their order. -/
def all : List FindingKind :=
  [inaccessibleConstructor, noViableConstructor, ambiguousConstructor, missingImplicitDefault]

/-- The place in the order of kinds. -/
def rank : FindingKind → Nat
  | inaccessibleConstructor => 0
  | noViableConstructor => 1
  | ambiguousConstructor => 2
  | missingImplicitDefault => 3

/-- The name of a kind in fixtures and reports. -/
def name : FindingKind → String
  | inaccessibleConstructor => "InaccessibleConstructor"
  | noViableConstructor => "NoViableConstructor"
  | ambiguousConstructor => "AmbiguousConstructor"
  | missingImplicitDefault => "MissingImplicitDefault"

/-- The kind with a name. -/
def ofName? (s : String) : Option FindingKind := all.find? fun k => k.name == s

theorem ofName?_name (k : FindingKind) : ofName? k.name = some k := by cases k <;> decide

end FindingKind

/-- Something wrong at a construction site. -/
structure Finding where
  kind : FindingKind
  /-- Where it is reported. -/
  location : Span
  /-- The class under construction. -/
  target : ClassId
  /-- The constructor that was chosen, if one was. -/
  constructor? : Option ConstructorRef
  /-- The access of the chosen constructor. -/
  access? : Option Access
  /-- The constructors that were tied, or considered in vain. -/
  candidates : List ConstructorRef
  site : Site
deriving DecidableEq, Repr

namespace Finding

/-- The order in which findings are reported. -/
def order : Finding → Finding → Ordering :=
  compareLex (compareOn (·.location)) <|
    compareLex (compareOn (·.kind.rank)) <|
      compareLex (compareOn (·.constructor?)) (compareOn (·.target.index))

/-- Sorts findings; those that the order does not tell apart stay as they were. -/
def sort (fs : List Finding) : List Finding := fs.mergeSort fun a b => (order a b).isLE

/-- A finding without a chosen constructor. -/
def atSite (kind : FindingKind) (s : Site) (target : ClassId) (candidates : List ConstructorRef) :
    Finding :=
  ⟨kind, s.location, target, none, none, candidates, s⟩

/-- The finding that the chosen constructor may not be called. -/
def inaccessible (s : Site) (c : Candidate) : Finding :=
  ⟨.inaccessibleConstructor, s.location, c.declaring, some c.constructor, some c.access, [], s⟩

end Finding

/-- At most this many candidates are pointed out by notes. -/
def maxCandidateNotes : Nat := 3

namespace Hierarchy

variable (h : Hierarchy)

/-- A constructor as it is written in the source. -/
def constructorName : ConstructorRef → String
  | .declared id =>
    match h.constructor? id with
    | some k => h.signature k.owner k.params
    | none => "<constructor>"
  | .implicit id => h.typeName (.ofClass id) ++ "()"

/-- Where a constructor is declared; an implicit one belongs to the head of its class. -/
def constructorSpan : ConstructorRef → Span
  | .declared id => ((h.constructor? id).map (·.span)).getD .unknown
  | .implicit id => ((h.class? id).map (·.span)).getD .unknown

/-- The message of a finding and its arguments. -/
def findingMessage (f : Finding) : Message × List String :=
  let target := h.typeName (.ofClass f.target)
  let call := [target, h.typeNames f.site.arguments]
  let chosen := [(f.constructor?.map h.constructorName).getD (target ++ "(...)")]
  match f.kind with
  | .inaccessibleConstructor =>
    if f.access? = some .protectedAccess then (.constructorIsProtected, chosen)
    else (.constructorIsPrivate, chosen)
  | .noViableConstructor => (.noMatchingConstructor, call)
  | .ambiguousConstructor => (.ambiguousCall, call)
  | .missingImplicitDefault => (.noDefaultConstructor, [target])

/-- Adds a note at the declaration of a constructor. -/
def withConstructorNote (fileName : Nat → String) (d : Diagnostic) (k : ConstructorRef)
    (m : Message) (args : List String) : Diagnostic :=
  let span := h.constructorSpan k
  d.withNote (fileName span.file) span (m.text args) m.code

/-- The finding in words, with notes if they are wanted. -/
def diagnostic (fileName : Nat → String) (related : Bool) (f : Finding) : Diagnostic :=
  let m := h.findingMessage f
  let plain := Diagnostic.errorAt (fileName f.location.file) f.location (m.1.text m.2) m.1.code
  if related then
    let declared :=
      match f.constructor?, f.access? with
      | some k, some access =>
        h.withConstructorNote fileName plain k .declaredHere [h.constructorName k, access.keyword]
      | _, _ => plain
    (f.candidates.take maxCandidateNotes).foldl
      (fun d k => h.withConstructorNote fileName d k .candidateConstructor [h.constructorName k])
      declared
  else plain

end Hierarchy

end ConstructorCheck
