import ConstructorCheck.Hierarchy.Derivation
import ConstructorCheck.Proofs.Results
/-!
# Masked hierarchies

A mask makes access levels look alike. Members all look public, and protected inheritance looks like
private inheritance; what constructors look like is up to the mask. Ids, names, types and public
inheritance show through every mask.

Two hierarchies that look the same through a mask differ in access levels only. So what can be found
out about a masked hierarchy does not depend on what the mask hides.

* `getClass_hierarchy`, `membersOf_hierarchy`, … — lookups find the same records, masked
* `baseGraph_hierarchy` — classes derive from each other as before, publicly or not
-/

namespace ConstructorCheck

/-- What constructors look like. A public one looks public, as an implicit one does. -/
structure Mask where
  constructor : Access → Access
  constructor_public : constructor .publicAccess = .publicAccess

namespace Mask

/-- Hides the access of constructors too: all of them look public. -/
def hidingConstructors : Mask := ⟨fun _ => .publicAccess, rfl⟩

/-- Shows the access of constructors. -/
def sparingConstructors : Mask := ⟨id, rfl⟩

/-- Protected inheritance looks like private inheritance. -/
def inheritance : Access → Access
  | .publicAccess => .publicAccess
  | .protectedAccess | .privateAccess => .privateAccess

theorem inheritance_eq_iff {a b : Access} :
    inheritance a = inheritance b ↔ (a = .publicAccess ↔ b = .publicAccess) := by
  cases a <;> cases b <;> decide

/-! ## What is masked -/

def base (b : BaseSpecifier) : BaseSpecifier := { b with access := inheritance b.access }

def classDecl (c : ClassDecl) : ClassDecl := { c with bases := c.bases.map base }

theorem any_base_classDecl (c : ClassDecl) (id : ClassId) :
    ((classDecl c).bases.any fun b => b.base = id) = c.bases.any fun b => b.base = id := by
  simp only [classDecl, List.any_map, Function.comp_def]
  rfl

def memberDecl (m : MemberDecl) : MemberDecl := { m with access := .publicAccess }

variable (μ : Mask)

def constructorDecl (k : ConstructorDecl) : ConstructorDecl :=
  { k with access := μ.constructor k.access }

def hierarchy (h : Hierarchy) : Hierarchy :=
  { h with
    classes := h.classes.map classDecl
    members := h.members.map memberDecl
    constructors := h.constructors.map μ.constructorDecl }

variable (h : Hierarchy)

/-! ## Lookups -/

@[simp] theorem length_classes_hierarchy :
    (μ.hierarchy h).classes.length = h.classes.length := List.length_map _

@[simp] theorem class?_hierarchy (id : ClassId) :
    (μ.hierarchy h).class? id = (h.class? id).map classDecl := List.getElem?_map

@[simp] theorem member?_hierarchy (id : MemberId) :
    (μ.hierarchy h).member? id = (h.member? id).map memberDecl := List.getElem?_map

@[simp] theorem constructor?_hierarchy (id : ConstructorId) :
    (μ.hierarchy h).constructor? id = (h.constructor? id).map μ.constructorDecl :=
  List.getElem?_map

theorem getClass_hierarchy (i : ClassId) :
    (μ.hierarchy h).getClass i = relabel id classDecl (h.getClass i) := by
  simp only [Hierarchy.getClass, class?_hierarchy]
  cases h.class? i <;> rfl

theorem getMember_hierarchy (i : MemberId) :
    (μ.hierarchy h).getMember i = relabel id memberDecl (h.getMember i) := by
  simp only [Hierarchy.getMember, member?_hierarchy]
  cases h.member? i <;> rfl

theorem membersOf_hierarchy (c : ClassDecl) :
    (μ.hierarchy h).membersOf (classDecl c) = (h.membersOf c).map memberDecl := by
  simp only [Hierarchy.membersOf, classDecl, List.map_filterMap, member?_hierarchy]

theorem constructorsOf_hierarchy (c : ClassDecl) :
    (μ.hierarchy h).constructorsOf (classDecl c) =
      (h.constructorsOf c).map μ.constructorDecl := by
  simp only [Hierarchy.constructorsOf, classDecl, List.map_filterMap, constructor?_hierarchy]

theorem ownConstructors_hierarchy (i : ClassId) :
    (μ.hierarchy h).ownConstructors i =
      relabel id (List.map μ.constructorDecl) (h.ownConstructors i) := by
  rw [Hierarchy.ownConstructors, getClass_hierarchy]
  exact relabel_map (μ.constructorsOf_hierarchy h)

@[simp] theorem typeName_hierarchy (t : TypeRef) : (μ.hierarchy h).typeName t = h.typeName t := by
  cases t with
  | primitive p => rfl
  | ofClass id =>
    simp only [Hierarchy.typeName, class?_hierarchy, Option.map_map]
    rfl

@[simp] theorem signature_hierarchy (owner : ClassId) (params : List Param) :
    (μ.hierarchy h).signature owner params = h.signature owner params := by
  have hparam : (μ.hierarchy h).paramName = h.paramName := by
    funext p
    simp only [Hierarchy.paramName, typeName_hierarchy]
  simp only [Hierarchy.signature, typeName_hierarchy, hparam]

/-! ## Derivation -/

@[simp] theorem classIds_hierarchy : (μ.hierarchy h).classIds = h.classIds := by
  simp only [Hierarchy.classIds, length_classes_hierarchy]

theorem basesWhere_hierarchy {keep : BaseSpecifier → Bool} (hkeep : ∀ b, keep (base b) = keep b)
    (id : ClassId) : (μ.hierarchy h).basesWhere keep id = h.basesWhere keep id := by
  simp only [Hierarchy.basesWhere, class?_hierarchy]
  cases h.class? id with
  | none => rfl
  | some c =>
    show ((c.bases.map base).filter keep).map (·.base) = _
    rw [List.filter_map, show keep ∘ base = keep from funext hkeep, List.map_map]
    rfl

/-- **Through a mask the classes are derived as before.** -/
theorem baseGraph_hierarchy {keep : BaseSpecifier → Bool} (hkeep : ∀ b, keep (base b) = keep b) :
    (μ.hierarchy h).baseGraph keep = h.baseGraph keep := by
  simp only [Hierarchy.baseGraph, Digraph.mk.injEq]
  exact ⟨μ.classIds_hierarchy h, funext (μ.basesWhere_hierarchy h hkeep)⟩

theorem derivedOf_hierarchy (id : ClassId) : (μ.hierarchy h).derivedOf id = h.derivedOf id := by
  simp only [Hierarchy.derivedOf, length_classes_hierarchy]
  split
  · simp only [hierarchy, List.filter_map, Function.comp_def, any_base_classDecl, List.map_map]
    rfl
  · rfl

theorem derivedGraph_hierarchy : (μ.hierarchy h).derivedGraph = h.derivedGraph := by
  simp only [Hierarchy.derivedGraph, Digraph.mk.injEq]
  exact ⟨μ.classIds_hierarchy h, funext (μ.derivedOf_hierarchy h)⟩

@[simp] theorem isDerivedFrom_hierarchy (derived base : ClassId) :
    (μ.hierarchy h).isDerivedFrom derived base = h.isDerivedFrom derived base := by
  rw [Hierarchy.isDerivedFrom, baseGraph_hierarchy _ _ fun _ => rfl]
  rfl

@[simp] theorem isAccessibleBase_hierarchy (derived base : ClassId) :
    (μ.hierarchy h).isAccessibleBase derived base = h.isAccessibleBase derived base := by
  -- a mask keeps apart what is public and what is not
  have hkeep (b : BaseSpecifier) :
      decide ((Mask.base b).access = .publicAccess) = decide (b.access = .publicAccess) :=
    decide_eq_decide.2 (by cases hb : b.access <;> simp [Mask.base, inheritance, hb])
  rw [Hierarchy.isAccessibleBase, baseGraph_hierarchy _ _ hkeep]
  rfl

@[simp] theorem depthAbove_hierarchy (id : ClassId) :
    (μ.hierarchy h).depthAbove id = h.depthAbove id := by
  rw [Hierarchy.depthAbove, baseGraph_hierarchy _ _ fun _ => rfl]
  rfl

@[simp] theorem depthBelow_hierarchy (id : ClassId) :
    (μ.hierarchy h).depthBelow id = h.depthBelow id := by
  rw [Hierarchy.depthBelow, derivedGraph_hierarchy]
  rfl

end Mask

end ConstructorCheck
