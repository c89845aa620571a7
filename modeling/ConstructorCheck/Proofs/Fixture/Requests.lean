import ConstructorCheck.Proofs.Fixture.Program
import ConstructorCheck.Proofs.Hierarchy.Extension
/-!
# What a fixture declares

The hierarchy of a fixture is built in two rounds. The first one declares the classes, the second
one adds what the classes contain. What the second round declares depends on the names of the
classes only, so it can be written down as a list before any of it is declared.

* `ClassSpec.requests` — what a class of the fixture declares in the second round
* `Adds` — an action on a hierarchy makes the declarations of such a list
* `ClassSpec.adds_fill` — filling a class makes the declarations that it requests
* `Fixture.hierarchy_eq_ok_iff` — the hierarchy of a fixture extends the declared classes by what
  they request
-/

namespace ConstructorCheck

/-! ## Requests -/

/-- Declarations that an action is going to make, unless a name or a place is wrong. -/
abbrev Requests := Except ModelError (List Declaration)

namespace Requests

/-- First some requests, then some others. -/
def append (r s : Requests) : Requests := do
  let ds ← r
  let es ← s
  pure (ds ++ es)

/-- The requests of all parts, one part after the other. -/
def all {α : Type} (l : List α) (req : α → Requests) : Requests := (l.mapM req).map List.flatten

/-- Something holds of every declaration that is requested. -/
def Forall (P : Declaration → Prop) (r : Requests) : Prop := ∀ ds, r = .ok ds → ∀ d ∈ ds, P d

namespace Forall

variable {P : Declaration → Prop}

theorem single {d : Declaration} (hd : P d) : Forall P (pure [d]) := by
  intro ds hok
  cases hok
  exact List.forall_mem_singleton.2 hd

theorem bind {α : Type} {x : Except ModelError α} {r : α → Requests}
    (hr : ∀ a, x = .ok a → Forall P (r a)) : Forall P (x >>= r) := by
  intro ds hok
  obtain ⟨a, ha, hok⟩ := bind_eq_ok_iff.1 hok
  exact hr a ha ds hok

theorem append {r s : Requests} (hr : Forall P r) (hs : Forall P s) : Forall P (r.append s) := by
  intro ds hok
  obtain ⟨ds₁, hds₁, hok⟩ := bind_eq_ok_iff.1 hok
  obtain ⟨ds₂, hds₂, hok⟩ := bind_eq_ok_iff.1 hok
  cases hok
  exact List.forall_mem_append.2 ⟨hr ds₁ hds₁, hs ds₂ hds₂⟩

theorem all {α : Type} {l : List α} {req : α → Requests} (hreq : ∀ a ∈ l, Forall P (req a)) :
    Forall P (Requests.all l req) := by
  intro ds hok d hd
  obtain ⟨dss, hdss, rfl⟩ := map_eq_ok_iff.1 hok
  obtain ⟨es, hes, hd⟩ := List.mem_flatten.1 hd
  obtain ⟨a, ha, hok⟩ := exists_of_mem_mapM hdss hes
  exact hreq a ha es hok d hd

end Forall

end Requests

section

variable (f : SourceFile) (g : Hierarchy) (id : ClassId)

def ClassSpec.pointRequests (c : ClassSpec) : Requests :=
  match c.implicitDefaultPlace? with
  | none => .ok []
  | some p => do
    let point ← f.placeSpan p
    pure [.implicitDefaultPoint id point]

def BaseSpec.requests (b : BaseSpec) : Requests := do
  let base ← g.namedClass b.name
  let span ← f.placeSpanOrUnknown b.place?
  pure [.base id base b.access span]

def MemberSpec.requests (m : MemberSpec) : Requests := do
  let type ← g.namedType m.type
  let span ← f.placeSpanOrUnknown m.place?
  pure [.member id m.name type m.access m.defaultInit? span]

def ConstructorSpec.requests (k : ConstructorSpec) : Requests := do
  let span ← f.placeSpanOrUnknown k.place?
  let params ← k.params.mapM (ClassSpec.param g)
  pure [.constructor id params k.access span]

/-- What a class adds to itself, in the order in which it does so. -/
def ClassSpec.requests (c : ClassSpec) : Requests :=
  (c.pointRequests f id).append <| (Requests.all c.bases (BaseSpec.requests f g id)).append <|
    (Requests.all c.members (MemberSpec.requests f g id)).append <|
      Requests.all c.constructors (ConstructorSpec.requests f g id)

end

variable {f : SourceFile} {g h h' : Hierarchy} {id : ClassId} {ds : List Declaration}

/-! What a class requests, it requests for itself. -/

theorem ClassSpec.owner?_pointRequests (c : ClassSpec) :
    (c.pointRequests f id).Forall fun d => d.owner? = some id := by
  unfold pointRequests
  split
  · intro ds hok
    cases hok
    exact List.forall_mem_nil _
  · exact .bind fun _ _ => .single rfl

theorem BaseSpec.owner?_requests (b : BaseSpec) :
    (b.requests f g id).Forall fun d => d.owner? = some id :=
  .bind fun _ _ => .bind fun _ _ => .single rfl

theorem MemberSpec.owner?_requests (m : MemberSpec) :
    (m.requests f g id).Forall fun d => d.owner? = some id :=
  .bind fun _ _ => .bind fun _ _ => .single rfl

theorem ConstructorSpec.owner?_requests (k : ConstructorSpec) :
    (k.requests f g id).Forall fun d => d.owner? = some id :=
  .bind fun _ _ => .bind fun _ _ => .single rfl

theorem ClassSpec.owner?_requests (c : ClassSpec) :
    (c.requests f g id).Forall fun d => d.owner? = some id :=
  c.owner?_pointRequests.append <| (Requests.Forall.all fun b _ => b.owner?_requests).append <|
    (Requests.Forall.all fun m _ => m.owner?_requests).append <|
      Requests.Forall.all fun k _ => k.owner?_requests

/-! ## Actions and their requests -/

/-- An action on hierarchies with the names of `g` makes the declarations of a list. -/
structure Adds (g : Hierarchy) (act : Hierarchy → Except ModelError Hierarchy) (r : Requests) :
    Prop where
  /-- No classes are declared. -/
  content : r.Forall fun d => d.owner? ≠ none
  iff_extend : ∀ {h h'}, h.names = g.names →
    (act h = .ok h' ↔ ∃ ds, r = .ok ds ∧ h.extend ds = .ok h')

namespace Adds

theorem of_owner {act : Hierarchy → Except ModelError Hierarchy} {r : Requests}
    (hr : r.Forall fun d => d.owner? = some id)
    (hact : ∀ {h h'}, h.names = g.names →
      (act h = .ok h' ↔ ∃ ds, r = .ok ds ∧ h.extend ds = .ok h')) : Adds g act r :=
  ⟨fun ds hok d hd => by simp [hr ds hok d hd], hact⟩

theorem names_eq {act : Hierarchy → Except ModelError Hierarchy} {r : Requests} (ha : Adds g act r)
    (hok : r = .ok ds) (hext : h.extend ds = .ok h') (hnames : h.names = g.names) :
    h'.names = g.names :=
  (Hierarchy.Extends.of_extend hext (ha.content ds hok)).names.trans hnames

theorem bind {act act' : Hierarchy → Except ModelError Hierarchy} {r s : Requests}
    (ha : Adds g act r) (ha' : Adds g act' s) :
    Adds g (fun h => act h >>= act') (r.append s) where
  content := ha.content.append ha'.content
  iff_extend := by
    intro h h' hnames
    rw [bind_eq_ok_iff]
    constructor
    · rintro ⟨h₁, hok, hok'⟩
      obtain ⟨ds, hds, hext⟩ := (ha.iff_extend hnames).1 hok
      obtain ⟨es, hes, hext'⟩ := (ha'.iff_extend (ha.names_eq hds hext hnames)).1 hok'
      refine ⟨ds ++ es, ?_, Hierarchy.extend_append_eq_ok_iff.2 ⟨h₁, hext, hext'⟩⟩
      exact bind_eq_ok_iff.2 ⟨ds, hds, bind_eq_ok_iff.2 ⟨es, hes, rfl⟩⟩
    · rintro ⟨_, hok, hext⟩
      obtain ⟨ds, hds, hok⟩ := bind_eq_ok_iff.1 hok
      obtain ⟨es, hes, hok⟩ := bind_eq_ok_iff.1 hok
      cases hok
      obtain ⟨h₁, hext, hext'⟩ := Hierarchy.extend_append_eq_ok_iff.1 hext
      exact ⟨h₁, (ha.iff_extend hnames).2 ⟨ds, hds, hext⟩,
        (ha'.iff_extend (ha.names_eq hds hext hnames)).2 ⟨es, hes, hext'⟩⟩

theorem nil : Adds g pure (.ok []) where
  content ds hok d hd := by
    cases hok
    cases hd
  iff_extend {h h'} _ := by
    constructor
    · intro hok
      cases hok
      exact ⟨[], rfl, rfl⟩
    · rintro ⟨ds, hds, hok⟩
      cases hds
      cases hok
      rfl

theorem foldlM {α : Type} {act : Hierarchy → α → Except ModelError Hierarchy} {req : α → Requests}
    (ha : ∀ a, Adds g (fun h => act h a) (req a)) (l : List α) :
    Adds g (fun h => l.foldlM act h) (Requests.all l req) := by
  induction l with
  | nil => exact nil
  | cons a l ih =>
    have hboth := (ha a).bind ih
    have hall : Requests.all (a :: l) req = (req a).append (Requests.all l req) := by
      unfold Requests.all Requests.append
      rw [List.mapM_cons]
      cases req a with
      | error e => rfl
      | ok ds => cases l.mapM req <;> rfl
    rw [hall]
    simpa only [List.foldlM_cons] using hboth

end Adds

/-! ## The second round -/

namespace Hierarchy

theorem namedClass_congr (hnames : h.names = g.names) (name : String) :
    h.namedClass name = g.namedClass name := by
  rw [namedClass, namedClass, classByName, classByName, hnames]

theorem namedType_congr (hnames : h.names = g.names) (name : String) :
    h.namedType name = g.namedType name := by
  rw [namedType, namedType, namedClass_congr hnames]

theorem extend_singleton (h : Hierarchy) (d : Declaration) :
    h.extend [d] = (h.declare d).map (·.2) := by
  show ((h.declare d).map _ >>= pure) = _
  cases h.declare d <;> rfl

theorem extend_point (h : Hierarchy) (id : ClassId) (point : Span) :
    h.extend [.implicitDefaultPoint id point] = h.setImplicitDefaultPoint id point := by
  rw [extend_singleton, declare]
  cases h.setImplicitDefaultPoint id point <;> rfl

theorem extend_base (h : Hierarchy) (a b : ClassId) (access : Access) (span : Span) :
    h.extend [.base a b access span] = h.addBase a b access span := by
  rw [extend_singleton, declare]
  cases h.addBase a b access span <;> rfl

theorem extend_member (h : Hierarchy) (owner : ClassId) (name : String) (type : TypeRef)
    (access : Access) (defaultInit? : Option Bool) (span : Span) :
    h.extend [.member owner name type access defaultInit? span] =
      (h.addMember owner name type access defaultInit? span).map (·.2) := by
  rw [extend_singleton, declare]
  cases h.addMember owner name type access defaultInit? span <;> rfl

theorem extend_constructor (h : Hierarchy) (owner : ClassId) (params : List Param)
    (access : Access) (span : Span) :
    h.extend [.constructor owner params access span] =
      (h.addConstructor owner params access span).map (·.2) := by
  rw [extend_singleton, declare]
  cases h.addConstructor owner params access span <;> rfl

end Hierarchy

namespace ClassSpec

theorem adds_setPoint (c : ClassSpec) : Adds g (c.setPoint f id) (c.pointRequests f id) := by
  refine .of_owner c.owner?_pointRequests fun {h h'} _ => ?_
  unfold setPoint pointRequests
  cases c.implicitDefaultPlace? with
  | none => exact Adds.nil.iff_extend (g := h) rfl
  | some p =>
    simp only [bind_eq_ok_iff, mapError_eq_ok_iff]
    constructor
    · rintro ⟨point, hpoint, hok⟩
      exact ⟨_, ⟨point, hpoint, rfl⟩, (h.extend_point id point).trans hok⟩
    · rintro ⟨_, ⟨point, hpoint, ⟨⟩⟩, hok⟩
      exact ⟨point, hpoint, (h.extend_point id point).symm.trans hok⟩

theorem adds_addBase (c : ClassSpec) (b : BaseSpec) :
    Adds g (fun h => c.addBase f id h b) (b.requests f g id) := by
  refine .of_owner b.owner?_requests fun {h h'} hnames => ?_
  simp only [addBase, BaseSpec.requests, bind_eq_ok_iff, mapError_eq_ok_iff,
    Hierarchy.namedClass_congr hnames]
  constructor
  · rintro ⟨base, hbase, span, hspan, hok⟩
    exact ⟨_, ⟨base, hbase, span, hspan, rfl⟩, (h.extend_base ..).trans hok⟩
  · rintro ⟨_, ⟨base, hbase, span, hspan, ⟨⟩⟩, hok⟩
    exact ⟨base, hbase, span, hspan, (h.extend_base ..).symm.trans hok⟩

theorem adds_addMember (m : MemberSpec) :
    Adds g (fun h => addMember f id h m) (m.requests f g id) := by
  refine .of_owner m.owner?_requests fun {h h'} hnames => ?_
  simp only [addMember, MemberSpec.requests, bind_eq_ok_iff, map_eq_ok_iff, mapError_eq_ok_iff,
    Hierarchy.namedType_congr hnames]
  constructor
  · rintro ⟨type, htype, span, hspan, hok⟩
    exact ⟨_, ⟨type, htype, span, hspan, rfl⟩, (h.extend_member ..).trans (map_eq_ok_iff.2 hok)⟩
  · rintro ⟨_, ⟨type, htype, span, hspan, ⟨⟩⟩, hok⟩
    exact ⟨type, htype, span, hspan, map_eq_ok_iff.1 ((h.extend_member ..).symm.trans hok)⟩

theorem adds_addConstructor (c : ClassSpec) (k : ConstructorSpec) :
    Adds g (fun h => c.addConstructor f id h k) (k.requests f g id) := by
  refine .of_owner k.owner?_requests fun {h h'} hnames => ?_
  have hparam : param h = param g :=
    funext fun p => by rw [param, param, Hierarchy.namedType_congr hnames]
  simp only [addConstructor, ConstructorSpec.requests, bind_eq_ok_iff, map_eq_ok_iff,
    mapError_eq_ok_iff, hparam]
  constructor
  · rintro ⟨span, hspan, params, hparams, hok⟩
    exact ⟨_, ⟨span, hspan, params, hparams, rfl⟩,
      (h.extend_constructor ..).trans (map_eq_ok_iff.2 hok)⟩
  · rintro ⟨_, ⟨span, hspan, params, hparams, ⟨⟩⟩, hok⟩
    exact ⟨span, hspan, params, hparams, map_eq_ok_iff.1 ((h.extend_constructor ..).symm.trans hok)⟩

/-- **Filling a class makes the declarations that it requests.** -/
theorem adds_fill (p : ClassSpec × ClassId) :
    Adds g (fun h => fill f h p) (p.1.requests f g p.2) :=
  p.1.adds_setPoint.bind <| (Adds.foldlM p.1.adds_addBase p.1.bases).bind <|
    (Adds.foldlM adds_addMember p.1.members).bind <|
      Adds.foldlM p.1.adds_addConstructor p.1.constructors

end ClassSpec

/-! ## The first round -/

namespace ClassSpec

/-- The span of the head of a class. -/
def headSpan (f : SourceFile) (c : ClassSpec) : Span :=
  (f.placeSpanOrUnknown c.place?).toOption.getD .unknown

theorem headSpan_eq {c : ClassSpec} {span : Span} (hok : f.placeSpanOrUnknown c.place? = .ok span) :
    c.headSpan f = span := by
  rw [headSpan, hok]
  rfl

theorem declare_eq_ok_iff {c : ClassSpec} :
    c.declare f h = .ok (id, h') ↔ (∃ span, f.placeSpanOrUnknown c.place? = .ok span) ∧
      h.names.lookup c.name = none ∧ id = ⟨h.classes.length⟩ ∧
        h' = h.withClass c.name (c.headSpan f) := by
  constructor
  · intro hok
    obtain ⟨span, hspan, hname, hid, hh⟩ := declare_eq_ok hok
    exact ⟨⟨span, hspan⟩, hname, hid, by rw [headSpan_eq hspan, hh]⟩
  · rintro ⟨⟨span, hspan⟩, hname, hid, hh⟩
    rw [headSpan_eq hspan] at hh
    refine bind_eq_ok_iff.2 ⟨span, hspan, mapError_eq_ok_iff.2 ?_⟩
    exact Hierarchy.declareClass_eq_ok_iff.2 ⟨hname, hid, hh⟩

/-- A hierarchy with some more classes, still without content. -/
def declaring (f : SourceFile) (h : Hierarchy) (cs : List ClassSpec) : Hierarchy :=
  cs.foldl (fun h c => h.withClass c.name (c.headSpan f)) h

/-- Some classes can be declared when their places are right and their names are new. -/
structure Declarable (f : SourceFile) (h : Hierarchy) (cs : List ClassSpec) : Prop where
  spans : ∀ c ∈ cs, ∃ span, f.placeSpanOrUnknown c.place? = .ok span
  names_fresh : ∀ c ∈ cs, h.names.lookup c.name = none
  names_nodup : (cs.map (·.name)).Nodup

theorem declarable_cons_iff {c : ClassSpec} {cs : List ClassSpec} (span : Span) :
    Declarable f h (c :: cs) ↔ ((∃ span, f.placeSpanOrUnknown c.place? = .ok span) ∧
      h.names.lookup c.name = none) ∧ Declarable f (h.withClass c.name span) cs := by
  have hlookup (name : String) : (h.withClass c.name span).names.lookup name = none ↔
      name ≠ c.name ∧ h.names.lookup name = none := by
    rw [Hierarchy.names_withClass, List.lookup_cons]
    by_cases heq : name = c.name
    · simp [heq]
    · simp [heq, beq_false_of_ne heq]
  constructor
  · rintro ⟨hspans, hfresh, hnodup⟩
    obtain ⟨hspan, hspans⟩ := List.forall_mem_cons.1 hspans
    obtain ⟨hname, hfresh⟩ := List.forall_mem_cons.1 hfresh
    obtain ⟨hnotin, hnodup⟩ := List.nodup_cons.1 hnodup
    refine ⟨⟨hspan, hname⟩, hspans, fun c' hc' => ?_, hnodup⟩
    refine (hlookup _).2 ⟨fun heq => ?_, hfresh c' hc'⟩
    exact hnotin (List.mem_map.2 ⟨c', hc', heq⟩)
  · rintro ⟨⟨hspan, hname⟩, hspans, hfresh, hnodup⟩
    refine ⟨List.forall_mem_cons.2 ⟨hspan, hspans⟩,
      List.forall_mem_cons.2 ⟨hname, fun c' hc' => ?_⟩,
      List.nodup_cons.2 ⟨fun hmem => ?_, hnodup⟩⟩
    · exact ((hlookup _).1 (hfresh c' hc')).2
    · obtain ⟨c', hc', heq⟩ := List.mem_map.1 hmem
      exact ((hlookup _).1 (hfresh c' hc')).1 heq

theorem declareAll_eq_ok_iff {cs : List ClassSpec} {ids : List ClassId} :
    declareAll f h cs = .ok (ids, h') ↔ Declarable f h cs ∧
      ids = (List.range' h.classes.length cs.length).map ClassId.mk ∧ h' = declaring f h cs := by
  induction cs generalizing h ids with
  | nil =>
    constructor
    · intro hok
      cases hok
      exact ⟨⟨nofun, nofun, .nil⟩, rfl, rfl⟩
    · rintro ⟨-, rfl, rfl⟩
      rfl
  | cons c cs ih =>
    have hlen : (h.withClass c.name (c.headSpan f)).classes.length = h.classes.length + 1 := by
      simp [Hierarchy.withClass]
    rw [declarable_cons_iff (c.headSpan f)]
    constructor
    · intro hok
      obtain ⟨⟨id, h₁⟩, hc, hok⟩ := bind_eq_ok_iff.1 hok
      obtain ⟨⟨ids', h₂⟩, hcs, hok⟩ := bind_eq_ok_iff.1 hok
      cases hok
      obtain ⟨hspan, hname, rfl, rfl⟩ := declare_eq_ok_iff.1 hc
      obtain ⟨hdecl, rfl, rfl⟩ := ih.1 hcs
      rw [hlen]
      exact ⟨⟨⟨hspan, hname⟩, hdecl⟩, rfl, rfl⟩
    · rintro ⟨⟨⟨hspan, hname⟩, hdecl⟩, rfl, rfl⟩
      refine bind_eq_ok_iff.2 ⟨_, declare_eq_ok_iff.2 ⟨hspan, hname, rfl, rfl⟩, ?_⟩
      refine bind_eq_ok_iff.2 ⟨_, ih.2 ⟨hdecl, rfl, rfl⟩, ?_⟩
      rw [hlen]
      rfl

end ClassSpec

namespace Fixture

variable {classes : List ClassSpec}

/-- The hierarchy after the first round. -/
def declared (f : SourceFile) (classes : List ClassSpec) : Hierarchy :=
  ClassSpec.declaring f .empty classes

/-- The classes with their ids. -/
def numbered (classes : List ClassSpec) : List (ClassSpec × ClassId) :=
  classes.zip ((List.range classes.length).map ClassId.mk)

theorem mem_numbered_iff {c : ClassSpec} :
    (c, id) ∈ numbered classes ↔ classes[id.index]? = some c := by
  rw [numbered, List.mem_iff_getElem?]
  simp only [List.getElem?_zip_eq_some, List.getElem?_map, Option.map_eq_some_iff]
  constructor
  · rintro ⟨i, hc, j, hj, rfl⟩
    obtain ⟨hi, rfl⟩ := List.getElem?_eq_some_iff.1 hj
    rwa [List.getElem_range]
  · intro hc
    have hlt := (List.getElem?_eq_some_iff.1 hc).1
    exact ⟨id.index, hc, id.index, List.getElem?_range hlt, rfl⟩

theorem numbered_ids_nodup (classes : List ClassSpec) :
    ((numbered classes).map (·.2)).Nodup := by
  rw [numbered, List.map_snd_zip (by simp)]
  exact List.nodup_range.map fun i j hij => ClassId.mk.inj hij

theorem numbered_nodup (classes : List ClassSpec) : (numbered classes).Nodup :=
  (numbered_ids_nodup classes).of_map

theorem declared_snoc (f : SourceFile) (classes : List ClassSpec) (c : ClassSpec) :
    declared f (classes ++ [c]) = (declared f classes).withClass c.name (c.headSpan f) :=
  List.foldl_append

theorem length_classes_declared (f : SourceFile) (classes : List ClassSpec) :
    (declared f classes).classes.length = classes.length := by
  induction classes using List.reverseRecOn with
  | nil => rfl
  | append_singleton classes c ih => simp [declared_snoc, Hierarchy.withClass, ih]

theorem members_declared (f : SourceFile) (classes : List ClassSpec) :
    (declared f classes).members = [] := by
  induction classes using List.reverseRecOn with
  | nil => rfl
  | append_singleton classes c ih => rwa [declared_snoc]

theorem constructors_declared (f : SourceFile) (classes : List ClassSpec) :
    (declared f classes).constructors = [] := by
  induction classes using List.reverseRecOn with
  | nil => rfl
  | append_singleton classes c ih => rwa [declared_snoc]

/-- The first round makes one record for each class, at its position. -/
theorem class?_declared (f : SourceFile) (classes : List ClassSpec) (id : ClassId) :
    (declared f classes).class? id =
      classes[id.index]?.map fun c => ⟨id, c.name, c.headSpan f, c.headSpan f, [], [], []⟩ := by
  induction classes using List.reverseRecOn with
  | nil => rfl
  | append_singleton classes c ih =>
    have hid : id = ⟨classes.length⟩ ↔ id.index = classes.length := by
      cases id
      simp
    rw [declared_snoc, Hierarchy.class?_withClass, length_classes_declared, Hierarchy.getElem?_snoc]
    simp only [hid]
    split
    · rfl
    · exact ih

theorem wellFormed_declared (hd : ClassSpec.Declarable f .empty classes) :
    (declared f classes).WellFormed := by
  have hok := ClassSpec.declareAll_eq_ok_iff.2 ⟨hd, rfl, rfl⟩
  exact ((ClassSpec.declareAll_spec hok).reachable .empty).wellFormed

/-- **The second round extends the first one by what the classes request.** -/
theorem hierarchy_eq_ok_iff :
    hierarchy f classes = .ok h ↔ ClassSpec.Declarable f .empty classes ∧
      ∃ ds, Requests.all (numbered classes)
          (fun p => p.1.requests f (declared f classes) p.2) = .ok ds ∧
        (declared f classes).extend ds = .ok h := by
  have hfill := Adds.foldlM (ClassSpec.adds_fill (f := f) (g := declared f classes))
    (numbered classes)
  have hnumbered : numbered classes = classes.zip
      ((List.range' Hierarchy.empty.classes.length classes.length).map ClassId.mk) := by
    rw [numbered, List.range_eq_range']
    rfl
  rw [← hfill.iff_extend rfl, hnumbered]
  constructor
  · intro hok
    obtain ⟨⟨ids, g⟩, hdeclare, hok⟩ := bind_eq_ok_iff.1 hok
    obtain ⟨hd, rfl, rfl⟩ := ClassSpec.declareAll_eq_ok_iff.1 hdeclare
    exact ⟨hd, hok⟩
  · rintro ⟨hd, hok⟩
    exact bind_eq_ok_iff.2 ⟨_, ClassSpec.declareAll_eq_ok_iff.2 ⟨hd, rfl, rfl⟩, hok⟩

end Fixture

end ConstructorCheck
