import Mathlib
import ConstructorCheck.Proofs.Fixture.Collected
import ConstructorCheck.Proofs.Fixture.Lines
/-!
# The program mirrors its fixture

A fixture speaks in names and places, a program in ids and spans. Here it is said what it means that
the one is the other, part by part, without mentioning how the program is built; and that every
program that is built does mirror its fixture.

* `NamesClass`, `NamesType` — what the names of a fixture stand for
* `ClassSpec.Mirrors`, `DefinitionSpec.Mirrors` — a class and a definition, with all their parts
* `Fixture.Mirrors` — the whole program: every record comes from the fixture, in its order
* `Fixture.program_mirrors` — the program of a fixture mirrors it

The names are resolved while the hierarchy is being built. This makes no difference, as the classes
are all declared before the first name is looked up.
-/

namespace ConstructorCheck

/-! ## What the names of a fixture stand for -/

/-- A name stands for the class that has it; the id is the position in the list of classes. -/
def NamesClass (classes : List ClassSpec) (name : String) (id : ClassId) : Prop :=
  ∃ c, classes[id.index]? = some c ∧ c.name = name

/-- The names of a hierarchy are those of the classes of a fixture. -/
def Hierarchy.NamesOf (g : Hierarchy) (classes : List ClassSpec) : Prop :=
  ∀ name id, g.classByName name = .ok id ↔ NamesClass classes name id

/-- A keyword stands for a scalar type, any other name for a class. -/
inductive NamesType (classes : List ClassSpec) (name : String) : TypeRef → Prop where
  | scalar {p : Primitive} (hp : p.keyword = name) : NamesType classes name (.primitive p)
  | ofClass {id : ClassId} (hno : ∀ p : Primitive, p.keyword ≠ name)
      (hid : NamesClass classes name id) : NamesType classes name (.ofClass id)

/-! ## Parts that mirror each other -/

section Parts

variable (f : SourceFile) (classes : List ClassSpec)

structure BaseSpec.Mirrors (b : BaseSpec) (s : BaseSpecifier) : Prop where
  base : NamesClass classes b.name s.base
  access : s.access = b.access
  span : f.spanOrUnknown b.place? = .ok s.span

structure MemberSpec.Mirrors (owner : ClassId) (m : MemberSpec) (r : MemberDecl) : Prop where
  owner : r.owner = owner
  name : r.name = m.name
  type : NamesType classes m.type r.type
  access : r.access = m.access
  /-- When nothing is said, members of class type have default initialization. -/
  defaultInit : r.defaultInit = m.defaultInit?.getD r.type.class?.isSome
  span : f.spanOrUnknown m.place? = .ok r.span

structure ParamSpec.Mirrors (p : ParamSpec) (q : Param) : Prop where
  type : NamesType classes p.type q.type
  defaulted : q.defaulted = p.defaulted

structure ConstructorSpec.Mirrors (owner : ClassId) (k : ConstructorSpec) (r : ConstructorDecl) :
    Prop where
  owner : r.owner = owner
  access : r.access = k.access
  params : List.Forall₂ (ParamSpec.Mirrors classes) k.params r.params
  span : f.spanOrUnknown k.place? = .ok r.span

/-- A class with its bases, and with the members and constructors that it lists. -/
structure ClassSpec.Mirrors (h : Hierarchy) (id : ClassId) (c : ClassSpec) (r : ClassDecl) :
    Prop where
  id_eq : r.id = id
  name : r.name = c.name
  span : f.spanOrUnknown c.place? = .ok r.span
  /-- Without a place of its own, the implicit default constructor is at the head of the class. -/
  implicitDefaultPoint :
    f.spanOrUnknown (c.implicitDefaultPlace?.or c.place?) = .ok r.implicitDefaultPoint
  bases : List.Forall₂ (BaseSpec.Mirrors f classes) c.bases r.bases
  members : List.Forall₂ (MemberSpec.Mirrors f classes id) c.members (h.membersOf r)
  members_listed : (h.membersOf r).map (·.id) = r.members
  constructors :
    List.Forall₂ (ConstructorSpec.Mirrors f classes id) c.constructors (h.constructorsOf r)
  constructors_listed : (h.constructorsOf r).map (·.id) = r.constructors

structure InitializerSpec.Mirrors (i : InitializerSpec) (e : Entry) : Prop where
  name : e.name = i.name
  arguments : List.Forall₂ (NamesType classes) i.arguments e.arguments
  span : f.span i.place = .ok e.span

structure DefinitionSpec.Mirrors (spec : DefinitionSpec) (d : Definition) : Prop where
  owner : NamesClass classes spec.className d.owner
  initializerList? :
    Option.Rel (fun p s => f.span p = .ok s) spec.initializerList? d.initializerList?
  bodyOpen : f.span spec.bodyOpen = .ok d.bodyOpen
  entries : List.Forall₂ (InitializerSpec.Mirrors f classes) spec.initializers d.entries

end Parts

namespace Fixture

/-- A program is what a fixture describes, and nothing else. -/
structure Mirrors (fixture : Fixture) (f : SourceFile) (p : Program) : Prop where
  class_count : p.hierarchy.classes.length = fixture.classes.length
  classes : ∀ (id : ClassId) c, fixture.classes[id.index]? = some c →
    ∃ r, p.hierarchy.class? id = some r ∧ c.Mirrors f fixture.classes p.hierarchy id r
  /-- The table of members holds those of the first class, then those of the second, and so on. -/
  members : List.Forall₂ (fun m r => m.2.Mirrors f fixture.classes m.1 r)
    (partsOf (·.members) fixture.classes) p.hierarchy.members
  constructors : List.Forall₂ (fun k r => k.2.Mirrors f fixture.classes k.1 r)
    (partsOf (·.constructors) fixture.classes) p.hierarchy.constructors
  names : p.hierarchy.NamesOf fixture.classes
  definitions : List.Forall₂ (DefinitionSpec.Mirrors f fixture.classes)
    fixture.definitions p.definitions
  defaultConstructed : List.Forall₂ (NamesClass fixture.classes)
    fixture.defaultConstructed p.defaultConstructed

end Fixture

variable {f : SourceFile} {classes : List ClassSpec} {g h : Hierarchy} {id : ClassId}
  {name : String} {c : ClassSpec} {ds : List Declaration}

/-! ## Names -/

theorem Primitive.ofKeyword?_eq_some_iff {word : String} {p : Primitive} :
    Primitive.ofKeyword? word = some p ↔ p.keyword = word := by
  constructor
  · intro hp
    unfold ofKeyword? at hp
    simpa using List.find?_some hp
  · rintro rfl
    exact ofKeyword?_keyword p

theorem Primitive.ofKeyword?_eq_none_iff {word : String} :
    Primitive.ofKeyword? word = none ↔ ∀ p : Primitive, p.keyword ≠ word := by
  simp only [Option.eq_none_iff_forall_ne_some, ne_eq, ofKeyword?_eq_some_iff]

namespace Hierarchy.NamesOf

theorem namedClass (hg : g.NamesOf classes) (hok : g.namedClass name = .ok id) :
    NamesClass classes name id := (hg name id).1 (mapError_eq_ok_iff.1 hok)

theorem namedType (hg : g.NamesOf classes) {t : TypeRef} (hok : g.namedType name = .ok t) :
    NamesType classes name t := by
  unfold Hierarchy.namedType at hok
  split at hok
  · next hp =>
    cases hok
    exact .scalar (Primitive.ofKeyword?_eq_some_iff.1 hp)
  · next hno =>
    obtain ⟨id, hid, rfl⟩ := map_eq_ok_iff.1 hok
    exact .ofClass (Primitive.ofKeyword?_eq_none_iff.1 hno) (hg.namedClass hid)

end Hierarchy.NamesOf

/-- After the first round all names are there. -/
theorem Fixture.namesOf_declared (hd : ClassSpec.Declarable f .empty classes) :
    (declared f classes).NamesOf classes := by
  intro name id
  rw [Hierarchy.classByName_eq_ok_iff, (wellFormed_declared hd).lookup_name]
  simp only [class?_declared, Option.map_eq_some_iff, NamesClass]
  constructor
  · rintro ⟨_, ⟨c, hc, rfl⟩, hname⟩
    exact ⟨c, hc, hname⟩
  · rintro ⟨c, hc, hname⟩
    exact ⟨_, ⟨c, hc, rfl⟩, hname⟩

/-! ## What the requests carry -/

section Requests

variable {α β : Type} {q : Declaration → Option β} {R : α → β → Prop}

namespace ClassSpec

/-- The requests of a class come in four groups. -/
theorem collects_requests {as₁ as₂ as₃ as₄ : List α}
    (hpoint : (c.pointRequests f id).Collects q R as₁)
    (hbases : (Requests.all c.bases (BaseSpec.requests f g id)).Collects q R as₂)
    (hmembers : (Requests.all c.members (MemberSpec.requests f g id)).Collects q R as₃)
    (hconstructors :
      (Requests.all c.constructors (ConstructorSpec.requests f g id)).Collects q R as₄) :
    (c.requests f g id).Collects q R (as₁ ++ (as₂ ++ (as₃ ++ as₄))) :=
  hpoint.append <| hbases.append <| hmembers.append hconstructors

theorem collects_no_point (hq : ∀ j point, q (.implicitDefaultPoint j point) = none) :
    (c.pointRequests f id).Collects q R [] := by
  unfold pointRequests
  cases c.implicitDefaultPlace? with
  | none => exact .nil
  | some p => exact .bind fun _ _ => .none (hq ..)

theorem collects_no_base (hq : ∀ a b access span, q (.base a b access span) = none) :
    (Requests.all c.bases (BaseSpec.requests f g id)).Collects q R [] :=
  .all_none _ fun _ => .bind fun _ _ => .bind fun _ _ => .none (hq ..)

theorem collects_no_member (hq : ∀ owner name type access defaultInit? span,
      q (.member owner name type access defaultInit? span) = none) :
    (Requests.all c.members (MemberSpec.requests f g id)).Collects q R [] :=
  .all_none _ fun _ => .bind fun _ _ => .bind fun _ _ => .none (hq ..)

theorem collects_no_constructor
    (hq : ∀ owner params access span, q (.constructor owner params access span) = none) :
    (Requests.all c.constructors (ConstructorSpec.requests f g id)).Collects q R [] :=
  .all_none _ fun _ => .bind fun _ _ => .bind fun _ _ => .none (hq ..)

theorem collects_points (c : ClassSpec) (id : ClassId) :
    (c.requests f g id).Collects Declaration.point?
      (fun a q => q.1 = a.1 ∧ f.span a.2 = .ok q.2)
      (c.implicitDefaultPlace?.toList.map (id, ·)) := by
  have hpoint : (c.pointRequests f id).Collects Declaration.point?
      (fun a q => q.1 = a.1 ∧ f.span a.2 = .ok q.2)
      (c.implicitDefaultPlace?.toList.map (id, ·)) := by
    unfold pointRequests
    cases c.implicitDefaultPlace? with
    | none => exact .nil
    | some p => exact .bind fun _ hspan => .single rfl ⟨rfl, mapError_eq_ok_iff.1 hspan⟩
  simpa only [List.append_nil] using collects_requests (g := g) hpoint
    (collects_no_base fun _ _ _ _ => rfl) (collects_no_member fun _ _ _ _ _ _ => rfl)
    (collects_no_constructor fun _ _ _ _ => rfl)

/-- **The requests of a class carry its bases, one by one.** -/
theorem collects_bases (hg : g.NamesOf classes) (c : ClassSpec) (id : ClassId) :
    (c.requests f g id).Collects Declaration.base?
      (fun a s => s.1 = a.1 ∧ a.2.Mirrors f classes s.2) (c.bases.map (id, ·)) := by
  have hbases : (Requests.all c.bases (BaseSpec.requests f g id)).Collects Declaration.base?
      (fun a s => s.1 = a.1 ∧ a.2.Mirrors f classes s.2) (c.bases.map (id, ·)) :=
    .all_single _ fun b => .bind fun _ hbase => .bind fun _ hspan =>
      .single rfl ⟨rfl, hg.namedClass hbase, rfl, mapError_eq_ok_iff.1 hspan⟩
  simpa only [List.nil_append, List.append_nil] using collects_requests
    (collects_no_point fun _ _ => rfl) hbases (collects_no_member fun _ _ _ _ _ _ => rfl)
    (collects_no_constructor fun _ _ _ _ => rfl)

theorem collects_members (hg : g.NamesOf classes) (c : ClassSpec) (id : ClassId) :
    (c.requests f g id).Collects Declaration.member?
      (fun a r => a.2.Mirrors f classes a.1 r) (c.members.map (id, ·)) := by
  have hmembers : (Requests.all c.members (MemberSpec.requests f g id)).Collects
      Declaration.member? (fun a r => a.2.Mirrors f classes a.1 r) (c.members.map (id, ·)) :=
    .all_single _ fun m => .bind fun _ htype => .bind fun _ hspan =>
      .single rfl ⟨rfl, rfl, hg.namedType htype, rfl, rfl, mapError_eq_ok_iff.1 hspan⟩
  simpa only [List.nil_append, List.append_nil] using collects_requests
    (collects_no_point fun _ _ => rfl) (collects_no_base fun _ _ _ _ => rfl) hmembers
    (collects_no_constructor fun _ _ _ _ => rfl)

theorem mirrors_of_param (hg : g.NamesOf classes) {p : ParamSpec} {q : Param}
    (hok : param g p = .ok q) : p.Mirrors classes q := by
  obtain ⟨type, htype, rfl⟩ := map_eq_ok_iff.1 hok
  exact ⟨hg.namedType htype, rfl⟩

theorem collects_constructors (hg : g.NamesOf classes) (c : ClassSpec) (id : ClassId) :
    (c.requests f g id).Collects Declaration.constructor?
      (fun a r => a.2.Mirrors f classes a.1 r) (c.constructors.map (id, ·)) := by
  have hconstructors : (Requests.all c.constructors (ConstructorSpec.requests f g id)).Collects
      Declaration.constructor? (fun a r => a.2.Mirrors f classes a.1 r)
      (c.constructors.map (id, ·)) :=
    .all_single _ fun k => .bind fun _ hspan => .bind fun _ hparams => .single rfl ⟨rfl, rfl,
      (mapM_eq_ok_iff.1 hparams).imp fun _ _ => mirrors_of_param hg,
      mapError_eq_ok_iff.1 hspan⟩
  exact collects_requests (collects_no_point fun _ _ => rfl) (collects_no_base fun _ _ _ _ => rfl)
    (collects_no_member fun _ _ _ _ _ _ => rfl) hconstructors

end ClassSpec

end Requests

/-! ## The records -/

theorem MemberSpec.mirrors_unnumbered_iff {m : MemberSpec} {r : MemberDecl} :
    m.Mirrors f classes id r.unnumbered ↔ m.Mirrors f classes id r :=
  ⟨fun h => ⟨h.owner, h.name, h.type, h.access, h.defaultInit, h.span⟩,
    fun h => ⟨h.owner, h.name, h.type, h.access, h.defaultInit, h.span⟩⟩

theorem ConstructorSpec.mirrors_unnumbered_iff {k : ConstructorSpec} {r : ConstructorDecl} :
    k.Mirrors f classes id r.unnumbered ↔ k.Mirrors f classes id r :=
  ⟨fun h => ⟨h.owner, h.access, h.params, h.span⟩, fun h => ⟨h.owner, h.access, h.params, h.span⟩⟩

namespace Fixture

/-- What the second round adds to the classes of the first one. -/
structure Fills (f : SourceFile) (classes : List ClassSpec) (ds : List Declaration)
    (h : Hierarchy) : Prop where
  declarable : ClassSpec.Declarable f .empty classes
  requested : Requests.all (numbered classes)
    (fun p => p.1.requests f (declared f classes) p.2) = .ok ds
  extends_declared : (declared f classes).Extends ds h
  reachable : h.Reachable

theorem exists_fills_of_hierarchy (hok : hierarchy f classes = .ok h) :
    ∃ ds, Fills f classes ds h := by
  obtain ⟨hd, ds, hds, hext⟩ := hierarchy_eq_ok_iff.1 hok
  have hcontent := (Adds.foldlM ClassSpec.adds_fill (numbered classes)).content ds hds
  exact ⟨ds, hd, hds, .of_extend hext hcontent, reachable_of_hierarchy hok⟩

namespace Fills

theorem namesOf (hf : Fills f classes ds h) : h.NamesOf classes := by
  intro name id
  rw [← namesOf_declared hf.declarable, Hierarchy.classByName, Hierarchy.classByName,
    hf.extends_declared.names]

/-- **The members of the hierarchy are those of the fixture, class by class.** -/
theorem members (hf : Fills f classes ds h) :
    List.Forall₂ (fun m r => m.2.Mirrors f classes m.1 r) (partsOf (·.members) classes)
      h.members := by
  have htable := hf.extends_declared.members
  rw [members_declared, List.map_nil, List.nil_append] at htable
  have hall := forall₂_partsOf
    (ClassSpec.collects_members (f := f) (namesOf_declared hf.declarable)) hf.requested
  rw [← htable, List.forall₂_map_right_iff] at hall
  exact hall.imp fun _ _ => MemberSpec.mirrors_unnumbered_iff.1

theorem constructors (hf : Fills f classes ds h) :
    List.Forall₂ (fun k r => k.2.Mirrors f classes k.1 r) (partsOf (·.constructors) classes)
      h.constructors := by
  have htable := hf.extends_declared.constructors
  rw [constructors_declared, List.map_nil, List.nil_append] at htable
  have hall := forall₂_partsOf
    (ClassSpec.collects_constructors (f := f) (namesOf_declared hf.declarable)) hf.requested
  rw [← htable, List.forall₂_map_right_iff] at hall
  exact hall.imp fun _ _ => ConstructorSpec.mirrors_unnumbered_iff.1

/-- A class record, up to what the class owns, in terms of what is requested for the class. -/
theorem exists_class (hf : Fills f classes ds h) (hc : classes[id.index]? = some c) :
    ∃ r, h.class? id = some r ∧ r.id = id ∧ r.name = c.name ∧ r.span = c.headSpan f ∧
      r.implicitDefaultPoint =
        (shareOf id (ds.filterMap Declaration.point?)).getLast?.getD (c.headSpan f) ∧
      r.bases = shareOf id (ds.filterMap Declaration.base?) := by
  have hrecord := hf.extends_declared.unlisted id
  rw [class?_declared, hc, Option.map_some, Option.map_some, foldl_onClass_eq_parts] at hrecord
  obtain ⟨r, hr, hunlisted⟩ := Option.map_eq_some_iff.1 hrecord
  simp only [ClassDecl.unlisted, List.nil_append, ClassDecl.mk.injEq] at hunlisted
  obtain ⟨hid, hname, hspan, hpoint, hbases, -⟩ := hunlisted
  exact ⟨r, hr, hid, hname, hspan, hpoint, hbases⟩

theorem class_count (hf : Fills f classes ds h) : h.classes.length = classes.length := by
  have hlt (id : ClassId) : id.index < h.classes.length ↔ id.index < classes.length := by
    rw [← Hierarchy.exists_class?_iff, hf.extends_declared.exists_class?_iff,
      Hierarchy.exists_class?_iff, length_classes_declared]
  have hle := hlt ⟨h.classes.length⟩
  have hge := hlt ⟨classes.length⟩
  simp only [Nat.lt_irrefl, false_iff, iff_false, Nat.not_lt] at hle hge
  exact Nat.le_antisymm hge hle

theorem bases (hf : Fills f classes ds h) (hc : classes[id.index]? = some c) :
    List.Forall₂ (BaseSpec.Mirrors f classes) c.bases
      (shareOf id (ds.filterMap Declaration.base?)) :=
  forall₂_shareOf (forall₂_partsOf
    (ClassSpec.collects_bases (f := f) (namesOf_declared hf.declarable)) hf.requested) hc

/-- The last point that is set for a class is the only one. -/
theorem point (hf : Fills f classes ds h) (hc : classes[id.index]? = some c)
    (hspan : f.spanOrUnknown c.place? = .ok (c.headSpan f)) :
    f.spanOrUnknown (c.implicitDefaultPlace?.or c.place?) =
      .ok ((shareOf id (ds.filterMap Declaration.point?)).getLast?.getD (c.headSpan f)) := by
  have hall : List.Forall₂ (fun a q => q.1 = a.1 ∧ f.span a.2 = .ok q.2)
      (partsOf (·.implicitDefaultPlace?.toList) classes) (ds.filterMap Declaration.point?) :=
    forall₂_partsOf ClassSpec.collects_points hf.requested
  have hshare := forall₂_shareOf (R := fun p s => f.span p = .ok s) hall hc
  cases hplace : c.implicitDefaultPlace? with
  | none =>
    rw [hplace] at hshare
    rw [List.forall₂_nil_left_iff.1 hshare]
    exact hspan
  | some p =>
    rw [hplace] at hshare
    obtain ⟨s, l, hs, hl, hshare⟩ := List.forall₂_cons_left_iff.1 hshare
    rw [hshare, List.forall₂_nil_left_iff.1 hl]
    exact hs

/-- **Each class of the fixture has a record that mirrors it.** -/
theorem mirrors_class (hf : Fills f classes ds h) (hc : classes[id.index]? = some c) :
    ∃ r, h.class? id = some r ∧ c.Mirrors f classes h id r := by
  obtain ⟨r, hr, hid, hname, hspan, hpoint, hbases⟩ := hf.exists_class hc
  have hw := hf.reachable.wellFormed
  have hhead : f.spanOrUnknown c.place? = .ok (c.headSpan f) := by
    obtain ⟨span, hok⟩ := hf.declarable.spans c (List.mem_of_getElem? hc)
    rw [ClassSpec.headSpan_eq hok]
    exact mapError_eq_ok_iff.1 hok
  have hmembers : (h.class? id).map (·.members) = some r.members := by rw [hr]; rfl
  have hconstructors : (h.class? id).map (·.constructors) = some r.constructors := by rw [hr]; rfl
  refine ⟨r, hr, hid, hname, hspan ▸ hhead, hpoint ▸ hf.point hc hhead, hbases ▸ hf.bases hc,
    ?_, hw.owned_members.map_id_filterMap hmembers, ?_,
    hw.owned_constructors.map_id_filterMap hconstructors⟩
  · rw [Hierarchy.membersOf,
      hw.owned_members.filterMap_eq_filter (Hierarchy.inTable_members h) hmembers]
    exact forall₂_filter_partsOf hf.members (fun _ _ hm => hm.owner) hc
  · rw [Hierarchy.constructorsOf,
      hw.owned_constructors.filterMap_eq_filter (Hierarchy.inTable_constructors h) hconstructors]
    exact forall₂_filter_partsOf hf.constructors (fun _ _ hk => hk.owner) hc

end Fills

end Fixture

/-! ## The definitions -/

theorem InitializerSpec.mirrors_of_entry (hh : h.NamesOf classes) {i : InitializerSpec} {e : Entry}
    (hok : i.entry f h = .ok e) : i.Mirrors f classes e := by
  obtain ⟨arguments, harguments, hok⟩ := bind_eq_ok_iff.1 hok
  obtain ⟨span, hspan, hok⟩ := bind_eq_ok_iff.1 hok
  cases hok
  exact ⟨rfl, (mapM_eq_ok_iff.1 harguments).imp fun _ _ => hh.namedType,
    mapError_eq_ok_iff.1 hspan⟩

theorem DefinitionSpec.mirrors_of_definition (hh : h.NamesOf classes) {spec : DefinitionSpec}
    {d : Definition} (hok : spec.definition f h = .ok d) : spec.Mirrors f classes d := by
  obtain ⟨owner, howner, hok⟩ := bind_eq_ok_iff.1 hok
  obtain ⟨bodyOpen, hbody, hok⟩ := bind_eq_ok_iff.1 hok
  obtain ⟨initializerList?, hlist, hok⟩ := bind_eq_ok_iff.1 hok
  obtain ⟨entries, hentries, hok⟩ := bind_eq_ok_iff.1 hok
  cases hok
  refine ⟨hh.namedClass howner, ?_, mapError_eq_ok_iff.1 hbody,
    (mapM_eq_ok_iff.1 hentries).imp fun _ _ => InitializerSpec.mirrors_of_entry hh⟩
  cases hplace : spec.initializerList? with
  | none =>
    rw [hplace] at hlist
    cases hlist
    exact .none
  | some p =>
    rw [hplace] at hlist
    obtain ⟨span, hspan, hlist⟩ := bind_eq_ok_iff.1 hlist
    cases hlist
    exact .some (mapError_eq_ok_iff.1 hspan)

namespace Fixture

variable {fixture : Fixture} {p : Program}

/--
**The program of a fixture mirrors it.** Class number `i` is the class number `i` of the fixture,
with the bases, members and constructors that are listed there, in that order; the hierarchy has no
other records and no other names; and so have the lists of definitions and of default-constructed
classes, one by one.
-/
theorem program_mirrors (hok : fixture.program f = .ok p) : fixture.Mirrors f p := by
  obtain ⟨hhierarchy, hdefinitions, hdefault⟩ := program_eq_ok hok
  obtain ⟨ds, hf⟩ := exists_fills_of_hierarchy hhierarchy
  exact {
    class_count := hf.class_count
    classes := fun _ _ => hf.mirrors_class
    members := hf.members
    constructors := hf.constructors
    names := hf.namesOf
    definitions := hdefinitions.imp fun _ _ => DefinitionSpec.mirrors_of_definition hf.namesOf
    defaultConstructed := hdefault.imp fun _ _ => hf.namesOf.namedClass }

/-- A class whose base and member are of a class that is described after it. -/
theorem program_mirrors_later_class :
    let fixture : Fixture := {
      description := "whole before part", source := "whole.cpp", options := .default
      classes := [⟨"Whole", some ⟨1, 1, 5⟩, [⟨"Part", .privateAccess, none⟩],
          [⟨"part", "Part", .publicAccess, none, some ⟨2, 1, 4⟩⟩],
          [⟨.publicAccess, [⟨"int", true⟩], none⟩], none⟩,
        ⟨"Part", none, [], [], [], some ⟨2, 1, 4⟩⟩]
      definitions := [⟨"Whole", none, ⟨1, 1, 5⟩, [⟨"part", ["Part"], ⟨2, 1, 4⟩⟩]⟩]
      defaultConstructed := ["Part"], expected := [] }
    let f : SourceFile := ⟨"whole.cpp", "Whole\nPart".toList⟩
    ∃ p, fixture.program f = .ok p ∧ fixture.Mirrors f p ∧
      p.hierarchy.members.map (·.type) = [.ofClass ⟨1⟩] ∧
      ∃ r, p.hierarchy.class? ⟨1⟩ = some r ∧ r.name = "Part" ∧
        r.implicitDefaultPoint = ⟨0, 6, 10⟩ := by
  intro fixture f
  have htypes : ((fixture.program f).toOption.map fun p => p.hierarchy.members.map (·.type)) =
      some [.ofClass ⟨1⟩] := by
    unfold fixture f
    cbv
  have hspan : f.spanOrUnknown (some ⟨2, 1, 4⟩) = .ok ⟨0, 6, 10⟩ := by decide +kernel +zetaReduce
  cases hp : fixture.program f with
  | error e => rw [hp] at htypes; cases htypes
  | ok p =>
    have hm := program_mirrors hp
    rw [hp] at htypes
    obtain ⟨r, hr, hc⟩ := hm.classes ⟨1⟩ _ rfl
    exact ⟨p, rfl, hm, Option.some.inj htypes, r, hr, hc.name,
      Except.ok.inj (hc.implicitDefaultPoint.symm.trans hspan)⟩

end Fixture

end ConstructorCheck
