import ConstructorCheck.Hierarchy.Declare
/-!
# Histories of declarations

A declaration is a request to extend a hierarchy. `run` makes a list of requests one after the
other and passes over those that are refused; a hierarchy is `Reachable` when some run from the
empty one leads to it.
-/

namespace ConstructorCheck

/-- A request to extend a hierarchy. -/
inductive Declaration where
  | newClass (name : String) (span : Span)
  | implicitDefaultPoint (id : ClassId) (point : Span)
  | base (derived base : ClassId) (access : Access) (span : Span)
  | member (owner : ClassId) (name : String) (type : TypeRef) (access : Access)
      (defaultInit? : Option Bool) (span : Span)
  | constructor (owner : ClassId) (params : List Param) (access : Access) (span : Span)
deriving DecidableEq, Repr

/-- What an accepted declaration answers: the id of the new record, if there is one. -/
inductive Declared where
  | ofClass (id : ClassId)
  | ofMember (id : MemberId)
  | ofConstructor (id : ConstructorId)
  | nothing
deriving DecidableEq, Repr

namespace Hierarchy

/-- Makes one declaration. -/
def declare (h : Hierarchy) : Declaration → Except HierarchyError (Declared × Hierarchy)
  | .newClass name span => (h.declareClass name span).map fun r => (.ofClass r.1, r.2)
  | .implicitDefaultPoint id point =>
    (h.setImplicitDefaultPoint id point).map fun r => (.nothing, r)
  | .base derived base access span => (h.addBase derived base access span).map fun r => (.nothing, r)
  | .member owner name type access defaultInit? span =>
    (h.addMember owner name type access defaultInit? span).map fun r => (.ofMember r.1, r.2)
  | .constructor owner params access span =>
    (h.addConstructor owner params access span).map fun r => (.ofConstructor r.1, r.2)

/-- The hierarchy after a declaration: unchanged when it is refused. -/
def step (h : Hierarchy) (d : Declaration) : Hierarchy :=
  match h.declare d with
  | .ok r => r.2
  | .error _ => h

/-- The hierarchy after a list of declarations. -/
def run (h : Hierarchy) (ds : List Declaration) : Hierarchy := ds.foldl step h

/-- A hierarchy that some list of declarations builds. -/
def Reachable (h : Hierarchy) : Prop := ∃ ds, empty.run ds = h

/--
Declares `count` classes named `stem` followed by a number from `i` on, each deriving from the one
before. Stops at the first refusal and returns it with the hierarchy built so far.
-/
def declareChain (h : Hierarchy) (stem : String) (access : Access) (last : Option ClassId) (i : Nat) :
    Nat → Hierarchy × Except HierarchyError (Option ClassId)
  | 0 => (h, .ok last)
  | count + 1 =>
    match h.declareClass (stem ++ i.repr) Span.unknown with
    | .error e => (h, .error e)
    | .ok (id, h₁) =>
      match last with
      | none => h₁.declareChain stem access (some id) (i + 1) count
      | some base =>
        match h₁.addBase id base access Span.unknown with
        | .error e => (h₁, .error e)
        | .ok h₂ => h₂.declareChain stem access (some id) (i + 1) count

end Hierarchy

end ConstructorCheck
