import ConstructorCheck.Proofs.Hierarchy.Refused
import ConstructorCheck.Proofs.Masking.Basic
/-!
# Declarations behind a mask

No check of a declaration reads an access level. So a masked declaration is answered as it is
without the mask, and the hierarchy that results is the masked one.

* `declare_hierarchy` — one declaration
* `declareAll_hierarchy` — a run, with all its answers
* `Declaration.Resembles` — declarations that look the same through the mask that hides constructors
-/

namespace ConstructorCheck

/-- The same declaration, but for what may differ in access: members, constructors, and inheritance
that is not public. -/
inductive Declaration.Resembles : Declaration → Declaration → Prop where
  | newClass (name : String) (span : Span) : Resembles (.newClass name span) (.newClass name span)
  | implicitDefaultPoint (id : ClassId) (point : Span) :
    Resembles (.implicitDefaultPoint id point) (.implicitDefaultPoint id point)
  | base (derived base : ClassId) (span : Span) {access access' : Access}
    (hpublic : access = .publicAccess ↔ access' = .publicAccess) :
    Resembles (.base derived base access span) (.base derived base access' span)
  | member (owner : ClassId) (name : String) (type : TypeRef) (defaultInit? : Option Bool)
    (span : Span) (access access' : Access) :
    Resembles (.member owner name type access defaultInit? span)
      (.member owner name type access' defaultInit? span)
  | constructor (owner : ClassId) (params : List Param) (span : Span) (access access' : Access) :
    Resembles (.constructor owner params access span) (.constructor owner params access' span)

/-- The access that a declaration gives to a constructor. -/
def Declaration.constructorAccess? : Declaration → Option Access
  | .constructor _ _ access _ => some access
  | _ => none

namespace Mask

variable (μ : Mask) (h : Hierarchy)

/-! ## Operations -/

theorem declaredClass_hierarchy (i : ClassId) :
    (μ.hierarchy h).declaredClass i = relabel id classDecl (h.declaredClass i) := by
  simp only [Hierarchy.declaredClass, class?_hierarchy]
  cases h.class? i <;> rfl

theorem modifyClass_hierarchy (i : ClassId) {f f' : ClassDecl → ClassDecl}
    (hf : ∀ c, f' (classDecl c) = classDecl (f c)) :
    (μ.hierarchy h).modifyClass i f' = μ.hierarchy (h.modifyClass i f) := by
  have hmodify : (h.classes.map classDecl).modify i.index f' =
      (h.classes.modify i.index f).map classDecl := by
    refine List.ext_getElem? fun j => ?_
    rw [List.getElem?_modify, List.getElem?_map, List.getElem?_map, List.getElem?_modify]
    cases h.classes[j]? with
    | none => rfl
    | some c =>
      split
      · exact congrArg some (hf c)
      · rfl
  simp only [Hierarchy.modifyClass, hierarchy, hmodify]

theorem withMember_hierarchy (m : MemberDecl) :
    (μ.hierarchy h).withMember (memberDecl m) = μ.hierarchy (h.withMember m) := by
  have hsnoc : { μ.hierarchy h with members := (μ.hierarchy h).members ++ [memberDecl m] } =
      μ.hierarchy { h with members := h.members ++ [m] } := by
    simp [hierarchy]
  unfold Hierarchy.withMember
  rw [hsnoc]
  exact μ.modifyClass_hierarchy _ m.owner fun _ => rfl

theorem withConstructor_hierarchy (k : ConstructorDecl) :
    (μ.hierarchy h).withConstructor (μ.constructorDecl k) = μ.hierarchy (h.withConstructor k) := by
  have hsnoc : { μ.hierarchy h with
      constructors := (μ.hierarchy h).constructors ++ [μ.constructorDecl k] } =
      μ.hierarchy { h with constructors := h.constructors ++ [k] } := by
    simp [hierarchy]
  unfold Hierarchy.withConstructor
  rw [hsnoc]
  exact μ.modifyClass_hierarchy _ k.owner fun _ => rfl

@[simp] theorem knowsType_hierarchy (t : TypeRef) :
    (μ.hierarchy h).knowsType t = h.knowsType t := by
  cases t with
  | primitive p => rfl
  | ofClass id => simp only [Hierarchy.knowsType, length_classes_hierarchy]

@[simp] theorem firstUnknown?_hierarchy (types : List TypeRef) :
    (μ.hierarchy h).firstUnknown? types = h.firstUnknown? types := by
  simp only [Hierarchy.firstUnknown?, knowsType_hierarchy]

@[simp] theorem exceedsDepth_hierarchy (derived base : ClassId) :
    (μ.hierarchy h).exceedsDepth derived base = h.exceedsDepth derived base := by
  simp only [Hierarchy.exceedsDepth, depthAbove_hierarchy, depthBelow_hierarchy]

theorem declareClass_hierarchy (name : String) (span : Span) :
    (μ.hierarchy h).declareClass name span =
      relabel id (Prod.map id μ.hierarchy) (h.declareClass name span) := by
  unfold Hierarchy.declareClass
  rw [length_classes_hierarchy, show (μ.hierarchy h).names = h.names from rfl]
  split
  · rfl
  · simp [hierarchy, classDecl]

theorem setImplicitDefaultPoint_hierarchy (i : ClassId) (point : Span) :
    (μ.hierarchy h).setImplicitDefaultPoint i point =
      relabel id μ.hierarchy (h.setImplicitDefaultPoint i point) := by
  unfold Hierarchy.setImplicitDefaultPoint
  rw [declaredClass_hierarchy]
  refine relabel_bind fun c => congrArg Except.ok ?_
  exact μ.modifyClass_hierarchy h i fun _ => rfl

theorem addBase_hierarchy (derived base : ClassId) (access : Access) (span : Span) :
    (μ.hierarchy h).addBase derived base (inheritance access) span =
      relabel id μ.hierarchy (h.addBase derived base access span) := by
  unfold Hierarchy.addBase
  rw [declaredClass_hierarchy, declaredClass_hierarchy]
  refine relabel_bind fun d => relabel_bind fun b => ?_
  rw [any_base_classDecl, isDerivedFrom_hierarchy, exceedsDepth_hierarchy]
  split
  · rfl
  split
  · rfl
  split
  · rfl
  split
  · rfl
  refine congrArg Except.ok (μ.modifyClass_hierarchy h derived fun c => ?_)
  simp [classDecl, Mask.base]

theorem addMember_hierarchy (owner : ClassId) (name : String) (type : TypeRef) (access : Access)
    (defaultInit? : Option Bool) (span : Span) :
    (μ.hierarchy h).addMember owner name type .publicAccess defaultInit? span =
      relabel id (Prod.map id μ.hierarchy)
        (h.addMember owner name type access defaultInit? span) := by
  unfold Hierarchy.addMember
  rw [declaredClass_hierarchy]
  refine relabel_bind fun c => ?_
  have hany : (((h.membersOf c).map memberDecl).any fun m => m.name == name) =
      (h.membersOf c).any fun m => m.name == name := by
    rw [List.any_map]
    rfl
  rw [membersOf_hierarchy, hany, firstUnknown?_hierarchy]
  split
  · rfl
  cases h.firstUnknown? [type] with
  | some i => rfl
  | none =>
    have hlength : (μ.hierarchy h).members.length = h.members.length := List.length_map _
    simp only [hlength, relabel_ok, Prod.map, id]
    refine congrArg (fun r => Except.ok (_, r)) ?_
    exact μ.withMember_hierarchy h ⟨⟨h.members.length⟩, owner, name, type, access, _, span⟩

theorem addConstructor_hierarchy (owner : ClassId) (params : List Param) (access : Access)
    (span : Span) :
    (μ.hierarchy h).addConstructor owner params (μ.constructor access) span =
      relabel id (Prod.map id μ.hierarchy) (h.addConstructor owner params access span) := by
  unfold Hierarchy.addConstructor
  rw [declaredClass_hierarchy]
  refine relabel_bind fun c => ?_
  have hany : (((h.constructorsOf c).map μ.constructorDecl).any fun k =>
      Hierarchy.sameTypes k.params params) =
        (h.constructorsOf c).any fun k => Hierarchy.sameTypes k.params params := by
    rw [List.any_map]
    rfl
  rw [firstUnknown?_hierarchy, constructorsOf_hierarchy, hany, signature_hierarchy]
  cases h.firstUnknown? (params.map (·.type)) with
  | some i => rfl
  | none =>
    dsimp only
    split
    · rfl
    split
    · rfl
    have hlength : (μ.hierarchy h).constructors.length = h.constructors.length := List.length_map _
    simp only [hlength, relabel_ok, Prod.map, id]
    refine congrArg (fun r => Except.ok (_, r)) ?_
    exact μ.withConstructor_hierarchy h ⟨⟨h.constructors.length⟩, owner, params, access, span⟩

/-! ## Declarations -/

def declaration : Declaration → Declaration
  | .newClass name span => .newClass name span
  | .implicitDefaultPoint id point => .implicitDefaultPoint id point
  | .base derived base access span => .base derived base (inheritance access) span
  | .member owner name type _ defaultInit? span =>
    .member owner name type .publicAccess defaultInit? span
  | .constructor owner params access span => .constructor owner params (μ.constructor access) span

/-- **A masked declaration is answered as it is without the mask.** -/
theorem declare_hierarchy (d : Declaration) :
    (μ.hierarchy h).declare (μ.declaration d) =
      relabel id (Prod.map id μ.hierarchy) (h.declare d) := by
  cases d with
  | newClass name span =>
    simp only [declaration, Hierarchy.declare]
    rw [declareClass_hierarchy]
    exact relabel_map fun _ => rfl
  | implicitDefaultPoint i point =>
    simp only [declaration, Hierarchy.declare]
    rw [setImplicitDefaultPoint_hierarchy]
    exact relabel_map fun _ => rfl
  | base derived base access span =>
    simp only [declaration, Hierarchy.declare]
    rw [addBase_hierarchy]
    exact relabel_map fun _ => rfl
  | member owner name type access defaultInit? span =>
    simp only [declaration, Hierarchy.declare]
    rw [μ.addMember_hierarchy h owner name type access]
    exact relabel_map fun _ => rfl
  | constructor owner params access span =>
    simp only [declaration, Hierarchy.declare]
    rw [addConstructor_hierarchy]
    exact relabel_map fun _ => rfl

/-- **A masked run is answered as it is without the mask, and ends with the masked hierarchy.** -/
theorem declareAll_hierarchy (ds : List Declaration) :
    InPlace.declareAll (μ.hierarchy h) (ds.map μ.declaration) =
      ((InPlace.declareAll h ds).1, μ.hierarchy (InPlace.declareAll h ds).2) := by
  induction ds generalizing h with
  | nil => rfl
  | cons d ds ih =>
    have hmasked := μ.declare_hierarchy h d
    cases hd : h.declare d with
    | ok r =>
      rw [hd] at hmasked
      rw [List.map_cons, InPlace.declareAll_cons_of_ok (InPlace.run_declare_eq_ok_iff.2 hmasked),
        InPlace.declareAll_cons_of_ok (InPlace.run_declare_eq_ok_iff.2 hd)]
      exact congrArg (fun r' => (_ :: r'.1, r'.2)) (ih r.2)
    | error e =>
      rw [hd] at hmasked
      rw [List.map_cons, InPlace.declareAll_cons_of_error (InPlace.run_declare_eq_error hmasked),
        InPlace.declareAll_cons_of_error (InPlace.run_declare_eq_error hd), ih]
      rfl

/-! ## Declarations that resemble each other -/

variable {μ} {h} {h' : Hierarchy} {d d' : Declaration} {ds ds' : List Declaration}

/-- Declarations that resemble each other look the same when their constructors do. -/
theorem declaration_eq_of_resembles (hd : d.Resembles d')
    (haccess : d.constructorAccess?.map μ.constructor = d'.constructorAccess?.map μ.constructor) :
    μ.declaration d = μ.declaration d' := by
  cases hd with
  | base derived base span hpublic =>
    exact congrArg (Declaration.base derived base · span) (inheritance_eq_iff.2 hpublic)
  | constructor owner params span access access' =>
    exact congrArg (Declaration.constructor owner params · span) (Option.some.inj haccess)
  | _ => rfl

theorem map_declaration_eq_of_resembles (hds : List.Forall₂ Declaration.Resembles ds ds')
    (haccess : ds.map (fun d => d.constructorAccess?.map μ.constructor) =
      ds'.map fun d => d.constructorAccess?.map μ.constructor) :
    ds.map μ.declaration = ds'.map μ.declaration := by
  induction hds with
  | nil => rfl
  | cons hd _ ih =>
    obtain ⟨hhead, htail⟩ := List.cons.inj haccess
    exact congrArg₂ List.cons (declaration_eq_of_resembles hd hhead) (ih htail)

/-- With their constructors hidden, all declarations that resemble each other look the same. -/
theorem map_hidden_eq_of_resembles (hds : List.Forall₂ Declaration.Resembles ds ds') :
    ds.map hidingConstructors.declaration = ds'.map hidingConstructors.declaration := by
  refine map_declaration_eq_of_resembles hds ?_
  induction hds with
  | nil => rfl
  | cons hd _ ih =>
    refine congrArg₂ List.cons ?_ ih
    cases hd <;> rfl

/-- Hierarchies look the same with their constructors shown when they do with them hidden and the
constructors have the same access. -/
theorem spared_eq_of_hidden_eq
    (hhidden : hidingConstructors.hierarchy h = hidingConstructors.hierarchy h')
    (haccess : h.constructors.map (·.access) = h'.constructors.map (·.access)) :
    sparingConstructors.hierarchy h = sparingConstructors.hierarchy h' := by
  obtain ⟨hclasses, hmembers, hconstructors, hnames⟩ := Hierarchy.mk.inj hhidden
  have hinjective : Function.Injective fun k : ConstructorDecl =>
      (hidingConstructors.constructorDecl k, k.access) := by
    rintro ⟨id, owner, params, access, span⟩ ⟨id', owner', params', access', span'⟩ hk
    simp only [constructorDecl, Prod.mk.injEq, ConstructorDecl.mk.injEq] at hk ⊢
    exact ⟨hk.1.1, hk.1.2.1, hk.1.2.2.1, hk.2, hk.1.2.2.2.2⟩
  have hsame : h.constructors = h'.constructors := by
    refine hinjective.list_map ?_
    have hzip := congrArg₂ List.zip hconstructors haccess
    rwa [List.zip_map', List.zip_map'] at hzip
  simp only [hierarchy, hclasses, hmembers, hsame, hnames]

end Mask

end ConstructorCheck
