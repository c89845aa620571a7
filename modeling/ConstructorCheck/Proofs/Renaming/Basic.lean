import ConstructorCheck.Proofs.Hierarchy.BaseChains
/-!
# Renamed hierarchies

Ids are positions in tables, so the same classes declared in another order have other ids. A
`Renaming` leads from the ids of one hierarchy to those of another, and `Renames` says that the two
hierarchies are the same but for it: what stands at an id in one stands, renamed, at the renamed id
in the other.

Ids that nothing stands at are renamed too. So lookups agree without any condition, failed ones
included.

* `getClass`, `membersOf`, `memberByName`, … — lookups in the other hierarchy find the same, renamed
* `isDerivedFrom`, `isAccessibleBase` — renamed classes derive from each other as before
-/

namespace ConstructorCheck

/-- New ids for the records of a hierarchy. -/
structure Renaming where
  ofClass : ClassId ≃ ClassId
  ofMember : MemberId ≃ MemberId
  ofConstructor : ConstructorId ≃ ConstructorId

namespace Renaming

variable (ρ : Renaming)

/-! ## What is renamed -/

def type : TypeRef → TypeRef
  | .primitive p => .primitive p
  | .ofClass id => .ofClass (ρ.ofClass id)

def param (p : Param) : Param := { p with type := ρ.type p.type }

def base (s : BaseSpecifier) : BaseSpecifier := { s with base := ρ.ofClass s.base }

def classDecl (c : ClassDecl) : ClassDecl :=
  { c with
    id := ρ.ofClass c.id
    bases := c.bases.map ρ.base
    members := c.members.map ρ.ofMember
    constructors := c.constructors.map ρ.ofConstructor }

def memberDecl (m : MemberDecl) : MemberDecl :=
  { m with id := ρ.ofMember m.id, owner := ρ.ofClass m.owner, type := ρ.type m.type }

def constructorDecl (k : ConstructorDecl) : ConstructorDecl :=
  { k with
    id := ρ.ofConstructor k.id
    owner := ρ.ofClass k.owner
    params := k.params.map ρ.param }

def lookupError : LookupError → LookupError
  | .unknownClass id => .unknownClass (ρ.ofClass id)
  | .unknownMember id => .unknownMember (ρ.ofMember id)
  | .unknownConstructor id => .unknownConstructor (ρ.ofConstructor id)
  | e => e

/-- The second hierarchy is the first one under new ids. -/
structure Renames (h h' : Hierarchy) : Prop where
  class? : ∀ id, h'.class? (ρ.ofClass id) = (h.class? id).map ρ.classDecl
  member? : ∀ id, h'.member? (ρ.ofMember id) = (h.member? id).map ρ.memberDecl
  constructor? : ∀ id,
    h'.constructor? (ρ.ofConstructor id) = (h.constructor? id).map ρ.constructorDecl
  lookup : ∀ name, h'.names.lookup name = (h.names.lookup name).map ρ.ofClass

theorem type_injective : Function.Injective ρ.type := by
  intro t u htu
  cases t with
  | primitive p =>
    cases u with
    | primitive q => exact htu
    | ofClass id => cases htu
  | ofClass id =>
    cases u with
    | primitive q => cases htu
    | ofClass id' => rw [ρ.ofClass.injective (TypeRef.ofClass.inj htu)]

@[simp] theorem class?_type (t : TypeRef) : (ρ.type t).class? = t.class?.map ρ.ofClass := by
  cases t <;> rfl

variable {ρ} {h h' : Hierarchy}

/-- Renamed classes keep their names, so names lead to the renamed classes. -/
theorem lookup_of_class? (hw : h.WellFormed) (hw' : h'.WellFormed)
    (hclass : ∀ id, h'.class? (ρ.ofClass id) = (h.class? id).map ρ.classDecl) (name : String) :
    h'.names.lookup name = (h.names.lookup name).map ρ.ofClass := by
  refine Option.ext fun j => ?_
  rw [hw'.lookup_name, Option.map_eq_some_iff]
  simp only [hw.lookup_name]
  constructor
  · rintro ⟨c', hc', hname⟩
    obtain ⟨i, rfl⟩ := ρ.ofClass.surjective j
    rw [hclass] at hc'
    obtain ⟨c, hc, rfl⟩ := Option.map_eq_some_iff.1 hc'
    exact ⟨i, ⟨c, hc, hname⟩, rfl⟩
  · rintro ⟨i, ⟨c, hc, hname⟩, rfl⟩
    exact ⟨ρ.classDecl c, by rw [hclass, hc]; rfl, hname⟩

namespace Renames

/-! ## Lookups -/

theorem getClass (hr : ρ.Renames h h') (id : ClassId) :
    h'.getClass (ρ.ofClass id) = relabel ρ.lookupError ρ.classDecl (h.getClass id) := by
  simp only [Hierarchy.getClass, hr.class?]
  cases h.class? id <;> rfl

theorem getMember (hr : ρ.Renames h h') (id : MemberId) :
    h'.getMember (ρ.ofMember id) = relabel ρ.lookupError ρ.memberDecl (h.getMember id) := by
  simp only [Hierarchy.getMember, hr.member?]
  cases h.member? id <;> rfl

theorem membersOf (hr : ρ.Renames h h') (c : ClassDecl) :
    h'.membersOf (ρ.classDecl c) = (h.membersOf c).map ρ.memberDecl := by
  simp only [Hierarchy.membersOf, classDecl, List.filterMap_map, List.map_filterMap]
  exact List.filterMap_congr fun id _ => hr.member? id

theorem constructorsOf (hr : ρ.Renames h h') (c : ClassDecl) :
    h'.constructorsOf (ρ.classDecl c) = (h.constructorsOf c).map ρ.constructorDecl := by
  simp only [Hierarchy.constructorsOf, classDecl, List.filterMap_map, List.map_filterMap]
  exact List.filterMap_congr fun id _ => hr.constructor? id

theorem ownConstructors (hr : ρ.Renames h h') (id : ClassId) :
    h'.ownConstructors (ρ.ofClass id) =
      relabel ρ.lookupError (List.map ρ.constructorDecl) (h.ownConstructors id) := by
  rw [Hierarchy.ownConstructors, hr.getClass]
  exact relabel_map hr.constructorsOf

theorem classByName (hr : ρ.Renames h h') (name : String) :
    h'.classByName name = relabel ρ.lookupError ρ.ofClass (h.classByName name) := by
  simp only [Hierarchy.classByName, hr.lookup]
  cases h.names.lookup name <;> rfl

theorem findBase (hr : ρ.Renames h h') (name : String) (bs : List BaseSpecifier) :
    h'.findBase name (bs.map ρ.base) =
      relabel ρ.lookupError (Option.map ρ.ofClass) (h.findBase name bs) := by
  induction bs with
  | nil => rfl
  | cons b bs ih =>
    rw [List.map_cons, Hierarchy.findBase, Hierarchy.findBase, base, hr.getClass]
    refine relabel_bind fun c => ?_
    rw [show (ρ.classDecl c).name = c.name from rfl, ih]
    split
    · rfl
    · rfl

theorem resolveBase (hr : ρ.Renames h h') (derived : ClassId) (name : String) :
    h'.resolveBase (ρ.ofClass derived) name =
      relabel ρ.lookupError ρ.ofClass (h.resolveBase derived name) := by
  rw [Hierarchy.resolveBase, Hierarchy.resolveBase, hr.getClass]
  refine relabel_bind fun c => ?_
  rw [show (ρ.classDecl c).bases = c.bases.map ρ.base from rfl, hr.findBase]
  refine relabel_bind fun found => ?_
  cases found <;> rfl

theorem memberByName (hr : ρ.Renames h h') (owner : ClassId) (name : String) :
    h'.memberByName (ρ.ofClass owner) name =
      relabel ρ.lookupError ρ.ofMember (h.memberByName owner name) := by
  rw [Hierarchy.memberByName, Hierarchy.memberByName, hr.getClass]
  refine relabel_bind fun c => ?_
  -- the names stay, so both searches end at the same member
  have hfind : ((h.membersOf c).map ρ.memberDecl).find? (fun m => m.name == name) =
      ((h.membersOf c).find? fun m => m.name == name).map ρ.memberDecl := List.find?_map
  rw [hr.membersOf, hfind]
  cases (h.membersOf c).find? fun m => m.name == name <;> rfl

theorem typeName (hr : ρ.Renames h h') (t : TypeRef) : h'.typeName (ρ.type t) = h.typeName t := by
  cases t with
  | primitive p => rfl
  | ofClass id =>
    show ((h'.class? (ρ.ofClass id)).map (·.name)).getD "<class>" = _
    rw [hr.class?, Option.map_map]
    rfl

/-! ## Derivation -/

theorem basesWhere (hr : ρ.Renames h h') {keep : BaseSpecifier → Bool}
    (hkeep : ∀ s, keep (ρ.base s) = keep s) (id : ClassId) :
    h'.basesWhere keep (ρ.ofClass id) = (h.basesWhere keep id).map ρ.ofClass := by
  simp only [Hierarchy.basesWhere, hr.class?]
  cases h.class? id with
  | none => rfl
  | some c =>
    show ((c.bases.map ρ.base).filter keep).map (·.base) = _
    rw [List.filter_map, show keep ∘ ρ.base = keep from funext hkeep, List.map_map, List.map_map]
    rfl

theorem edge_iff (hr : ρ.Renames h h') {keep : BaseSpecifier → Bool}
    (hkeep : ∀ s, keep (ρ.base s) = keep s) (a b : ClassId) :
    (h'.baseGraph keep).Edge (ρ.ofClass a) (ρ.ofClass b) ↔ (h.baseGraph keep).Edge a b := by
  show ρ.ofClass b ∈ h'.basesWhere keep (ρ.ofClass a) ↔ b ∈ h.basesWhere keep a
  rw [hr.basesWhere hkeep, List.mem_map_of_injective ρ.ofClass.injective]

theorem reaches (hr : ρ.Renames h h') {keep : BaseSpecifier → Bool}
    (hkeep : ∀ s, keep (ρ.base s) = keep s) (a b : ClassId) :
    (h'.baseGraph keep).reaches (ρ.ofClass a) (ρ.ofClass b) = (h.baseGraph keep).reaches a b := by
  rw [Bool.eq_iff_iff, Digraph.reaches_iff, Digraph.reaches_iff]
  exact exists_congr fun n => Chain.map_equiv_iff ρ.ofClass (hr.edge_iff hkeep)

theorem isDerivedFrom (hr : ρ.Renames h h') (derived base : ClassId) :
    h'.isDerivedFrom (ρ.ofClass derived) (ρ.ofClass base) = h.isDerivedFrom derived base :=
  hr.reaches (fun _ => rfl) derived base

theorem isAccessibleBase (hr : ρ.Renames h h') (derived base : ClassId) :
    h'.isAccessibleBase (ρ.ofClass derived) (ρ.ofClass base) = h.isAccessibleBase derived base :=
  hr.reaches (fun _ => rfl) derived base

end Renames

end Renaming

end ConstructorCheck
