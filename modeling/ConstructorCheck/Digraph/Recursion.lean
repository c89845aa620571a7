import ConstructorCheck.Digraph
import ConstructorCheck.Span
/-!
# Depth by recursion

`Digraph.walk` gives up where it meets a node whose depth it is finding. Whoever knows that this
does not happen need not look for it, and whoever looks for it need not give up. Here are the two
recursions of that kind, with depths of 32 bits: there is no result where a sum is too large.

* `climb` — goes on to the successors of a node whatever it has met before
* `descend` — takes a node that it meets again for one without successors

On a cycle `climb` does not come to an end, which is `none` too: a result means that it does.
`descend` always ends, but on a cycle it may find a depth that is too small. It says in its answer
whether it has met a node again.
-/

namespace ConstructorCheck.Digraph

variable {α : Type} [DecidableEq α]

/-! ## Without a guard -/

/--
One more than the greatest depth of the listed nodes, 0 if there is none, together with all depths
found on the way.
-/
def climb (g : Digraph α) (known : Depths α) : List α → Option (Nat × Depths α)
  | [] => some (0, known)
  | a :: rest =>
    match known.lookup a with
    | some d => do
      let step ← checkedAdd? d 1
      let (m, final) ← g |>.climb known rest
      some (max step m, final)
    | none => do
      let (d, known') ← g |>.climb known (g.succ a)
      let step ← checkedAdd? d 1
      let (m, final) ← g |>.climb ((a, d) :: known') rest
      some (max step m, final)
partial_fixpoint

variable (g : Digraph α)

/-- The depth of a node, when some depths are known already, and all depths known then. -/
def climbFrom (known : Depths α) (a : α) : Option (Nat × Depths α) :=
  match known.lookup a with
  | some d => some (d, known)
  | none => (g.climb known (g.succ a)).map fun r => (r.1, (a, r.1) :: r.2)

/-- All depths known after climbing from some nodes, one after the other. -/
def climbAll (nodes : List α) : Option (Depths α) :=
  nodes.foldlM (fun known a => (g.climbFrom known a).map (·.2)) []

/-! ## With a guard -/

/--
One more than the greatest depth of the listed nodes, 0 if there is none, together with all depths
found on the way and whether a node of `path` has been met. Such a node has no depth yet: it counts
as 0, and this is not remembered.
-/
def descend (path : List α) (known : Depths α) : List α → Option (Nat × Depths α × Bool)
  | [] => some (0, known, false)
  | a :: rest =>
    match known.lookup a with
    | some d => do
      let step ← checkedAdd? d 1
      let (m, final, cut) ← descend path known rest
      some (max step m, final, cut)
    | none =>
      if a ∈ path then do
        let (m, final, _) ← descend path known rest
        some (max 1 m, final, true)
      else do
        let (d, known', cut) ← descend (a :: path) known (g.succ a)
        let step ← checkedAdd? d 1
        let (m, final, cutLater) ← descend path ((a, d) :: known') rest
        some (max step m, final, cut || cutLater)
termination_by work => (g.unseen path, work.length)
decreasing_by
  · exact .right _ (by simp)
  · exact .right _ (by simp)
  · rename_i h
    simpa using g.enter_lt h [] rest
  · exact .right _ (by simp)

/--
The depth of a node, when some depths are known already, with all depths known then and whether the
guard has taken effect.
-/
def descendFrom (known : Depths α) (a : α) : Option (Nat × Depths α × Bool) :=
  match known.lookup a with
  | some d => some (d, known, false)
  | none => (g.descend [a] known (g.succ a)).map fun r => (r.1, (a, r.1) :: r.2.1, r.2.2)

/-- All depths known after descending from some nodes, one after the other. -/
def descendAll (nodes : List α) : Option (Depths α) :=
  nodes.foldlM (fun known a => (g.descendFrom known a).map (·.2.1)) []

end ConstructorCheck.Digraph
