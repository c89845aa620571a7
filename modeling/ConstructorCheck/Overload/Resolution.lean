import ConstructorCheck.Overload.Candidate
import ConstructorCheck.Overload.Rank
/-!
# Overload resolution

A candidate is viable for some arguments when it takes that many and every argument converts to its
parameter. Resolution looks for the viable candidate that is better than every other one.

Since being better is transitive, one pass that always keeps the better of two candidates ends
with the only one that can be best; a second pass lists the candidates that it does not beat.
-/

namespace ConstructorCheck

open ConversionRank (better)

/-- A viable candidate with the rank of each argument. -/
structure Ranked where
  candidate : Candidate
  ranks : List ConversionRank
deriving DecidableEq, Repr

/-- What a call chooses. -/
inductive Resolution where
  | resolved (winner : Ranked)
  /-- No candidate is better than all others; the tied ones in the order of the candidates. -/
  | ambiguous (tied : List ConstructorRef)
  | noMatch
deriving DecidableEq, Repr

/-- The ranks of the arguments for a candidate, or `none` when it is not viable. -/
def Hierarchy.ranks? (h : Hierarchy) (args : List TypeRef) (c : Candidate) :
    Option (List ConversionRank) :=
  if acceptsArity c.params args.length then
    (args.zip c.params).mapM fun p => h.conversionRank p.1 p.2.type
  else none

/-- The viable candidates, in order. -/
def Hierarchy.viable (h : Hierarchy) (args : List TypeRef) (cs : List Candidate) : List Ranked :=
  cs.filterMap fun c => (h.ranks? args c).map (Ranked.mk c)

/-- The winner of a pass in which a later entry replaces the current one when it is better. -/
def survivor (first : Ranked) (rest : List Ranked) : Ranked :=
  rest.foldl (fun best e => if better e.ranks best.ranks then e else best) first

/-- The entries that a given one does not beat. -/
def unbeatenBy (best : Ranked) (entries : List Ranked) : List Ranked :=
  entries.filter fun e => !better best.ranks e.ranks

/-- The constructor that some arguments choose among the candidates. -/
def Hierarchy.resolve (h : Hierarchy) (cs : List Candidate) (args : List TypeRef) : Resolution :=
  match h.viable args cs with
  | [] => .noMatch
  | first :: rest =>
    let best := survivor first rest
    let unbeaten := unbeatenBy best (first :: rest)
    -- the survivor never beats itself, so it is always among them
    if unbeaten.length = 1 then .resolved best
    else .ambiguous (unbeaten.map (·.candidate.constructor))

end ConstructorCheck
