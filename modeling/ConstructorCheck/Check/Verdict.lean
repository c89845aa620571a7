import ConstructorCheck.Check.Finding
import ConstructorCheck.Overload.Resolution
/-!
# The verdict on a site

`checkSite` checks one construction site: it gathers the candidates, resolves the call and asks
whether the chosen constructor may be called there. A best match that is not accessible is
reported; no other candidate takes its place.

Who may call a constructor depends on its access alone: anyone, the classes that derive from its
class, or its class only.
-/

namespace ConstructorCheck.Hierarchy

variable (h : Hierarchy)

/-- Whether code in the class `calling` may use a constructor of `declaring` with some access. -/
def isAccessible (access : Access) (declaring calling : ClassId) : Bool :=
  match access with
  | .publicAccess => true
  | .privateAccess => calling = declaring
  | .protectedAccess => calling = declaring || h.isDerivedFrom calling declaring

/-- The finding about a chosen constructor, if it may not be called at a site. -/
def accessFinding (s : Site) (c : Candidate) : Option Finding :=
  if h.isAccessible c.access c.declaring s.context then none else some (.inaccessible s c)

/-- What is wrong at a site, if anything. -/
def checkSite (s : Site) : Except CheckError (Option Finding) := do
  match ← h.gather s with
  | .missingDefault target considered =>
    pure (some (.atSite .missingImplicitDefault s target considered))
  | .candidates target cs =>
    match h.resolve cs s.arguments with
    | .ambiguous tied => pure (some (.atSite .ambiguousConstructor s target tied))
    | .noMatch => pure (some (.atSite .noViableConstructor s target (cs.map (·.constructor))))
    | .resolved winner => pure (h.accessFinding s winner.candidate)

end ConstructorCheck.Hierarchy
