import ConstructorCheck.Digraph.Recursion
import ConstructorCheck.Hierarchy.Derivation
/-!
# The depth of a new edge

How deep a hierarchy gets with one more base, measured with numbers of 32 bits: up from the base by
following the lists of bases, and down from the derived class along a table that holds all edges the
other way round.
-/

namespace ConstructorCheck.Hierarchy

variable (h : Hierarchy)

/-- All bases that are listed, each with the class that lists it. -/
def derivedEdges : List (ClassId × ClassId) :=
  h.classes.flatMap fun c => c.bases.map fun b => (b.base, c.id)

/-- The graph of derived classes as that table has it. -/
def derivedTable : Digraph ClassId where
  nodes := h.derivedEdges.map (·.1)
  succ id := (h.derivedEdges.filter fun e => e.1 = id).map (·.2)
  succ_eq_nil id hid := by
    rw [List.map_eq_nil_iff, List.filter_eq_nil_iff]
    intro e he heq
    exact hid (List.mem_map.2 ⟨e, he, by simpa using heq⟩)

/--
The number of edges of the longest chain over an edge from `derived` to `base`, if all numbers on
the way have 32 bits.
-/
def checkedDepth? (derived base : ClassId) : Option Nat := do
  let (above, _) ← (h.baseGraph fun _ => true).climbFrom [] base
  let edge ← checkedAdd? above 1
  let (below, _) ← h.derivedTable.descendFrom [] derived
  checkedAdd? edge below

end ConstructorCheck.Hierarchy
