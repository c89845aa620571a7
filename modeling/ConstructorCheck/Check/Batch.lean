import ConstructorCheck.Check.Definition
import ConstructorCheck.Check.Options
import ConstructorCheck.Check.ParallelMap
import ConstructorCheck.Check.Verdict
/-!
# Batches of sites

`checkSites` checks the sites of a batch, all at once if the batch is large, and sorts what it
finds. `checkDefinitions` and `checkImplicitDefaults` find the sites of their batch themselves, one
part of the batch after the other.

A batch fails when one of its sites does. If its sites are checked one after the other, the error is
that of the first; if they are checked at once, that of any site that fails.
-/

namespace ConstructorCheck.Hierarchy

variable [ParallelMap] (h : Hierarchy)

/-- The outcomes at all sites, or an error. -/
def outcomes (o : Options) (sites : List Site) : Except CheckError (List (Option Finding)) :=
  if o.runsInParallel sites.length then ParallelMap.mapM h.checkSite sites
  else sites.mapM h.checkSite

/-- What is wrong at the sites of a batch, sorted. -/
def checkSites (o : Options) (sites : List Site) : Except CheckError (List Finding) :=
  (h.outcomes o sites).map fun fs => Finding.sort (fs.filterMap id)

/-- What is wrong in some constructor definitions, sorted. -/
def checkDefinitions (o : Options) (ds : List Definition) : Except CheckError (List Finding) := do
  let sites ← ds.mapM h.sitesOf
  h.checkSites o sites.flatten

/-- What is wrong in the implicitly defined default constructors of some classes, sorted. -/
def checkImplicitDefaults (o : Options) (ids : List ClassId) :
    Except CheckError (List Finding) := do
  let sites ← ids.mapM h.implicitSitesOf
  h.checkSites o sites.flatten

/-- Findings in words. -/
def report (o : Options) (fileName : Nat → String) (fs : List Finding) : List Diagnostic :=
  fs.map (h.diagnostic fileName o.relatedInformation)

end ConstructorCheck.Hierarchy
