import ConstructorCheck.Digraph
import ConstructorCheck.Hierarchy.Lookup
/-!
# Derivation

The direct bases make a graph of the classes. A class derives from another when a chain of one or
more of its edges leads there; along public edges only, the other class is an accessible base.

* `baseGraph` — edges from each class to its direct bases, or to some of them
* `derivedGraph` — edges from each class to the classes that list it as a direct base
-/

namespace ConstructorCheck.Hierarchy

variable (h : Hierarchy)

/-- The ids of the recorded classes. -/
def classIds : List ClassId := (List.range h.classes.length).map ClassId.mk

@[simp] theorem mem_classIds {id : ClassId} : id ∈ h.classIds ↔ id.index < h.classes.length := by
  constructor
  · intro hm
    obtain ⟨n, hn, rfl⟩ := List.mem_map.1 hm
    exact List.mem_range.1 hn
  · intro hlt
    exact List.mem_map.2 ⟨id.index, List.mem_range.2 hlt, rfl⟩

/-- The direct bases of a class that satisfy a test; none for an unknown class. -/
def basesWhere (keep : BaseSpecifier → Bool) (id : ClassId) : List ClassId :=
  match h.class? id with
  | some c => (c.bases.filter keep).map (·.base)
  | none => []

/-- The classes that list a recorded class as a direct base. -/
def derivedOf (id : ClassId) : List ClassId :=
  if id.index < h.classes.length then
    (h.classes.filter fun c => c.bases.any fun b => b.base = id).map (·.id)
  else []

/-- The graph that leads from each class to its direct bases that satisfy a test. -/
def baseGraph (keep : BaseSpecifier → Bool) : Digraph ClassId where
  nodes := h.classIds
  succ := h.basesWhere keep
  succ_eq_nil id hid := by
    have : h.class? id = none := by simpa [class?] using hid
    simp [basesWhere, this]

/-- The graph that leads from each class to the classes that derive directly from it. -/
def derivedGraph : Digraph ClassId where
  nodes := h.classIds
  succ := h.derivedOf
  succ_eq_nil id hid := by
    have : ¬ id.index < h.classes.length := by simpa using hid
    simp [derivedOf, this]

/-- Whether a class derives from another, directly or not. No class derives from itself. -/
def isDerivedFrom (derived base : ClassId) : Bool :=
  (h.baseGraph fun _ => true).reaches derived base

/-- Whether a class derives from another through public inheritance only. -/
def isAccessibleBase (derived base : ClassId) : Bool :=
  (h.baseGraph fun b => b.access = .publicAccess).reaches derived base

/-- The number of edges of the longest chain of bases above a class. -/
def depthAbove (id : ClassId) : Option Nat := (h.baseGraph fun _ => true).depth? id

/-- The number of edges of the longest chain of derived classes below a class. -/
def depthBelow (id : ClassId) : Option Nat := h.derivedGraph.depth? id

end ConstructorCheck.Hierarchy
