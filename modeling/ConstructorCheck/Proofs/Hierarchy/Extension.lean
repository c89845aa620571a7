import ConstructorCheck.Proofs.Hierarchy.BaseChains
/-!
# Extending declared classes

Once its classes are declared, a hierarchy is built by declarations that add to them. What such
declarations add can be read off their list, without making them one by one, and so can whether all
of them will be accepted.

* `foldl_onClass_eq_parts` — a class record after some declarations, from its share of what they add
* `Extends` — what the tables hold after some declarations
* `Admissible` — the conditions on a whole list of declarations
* `exists_extend_iff` — a list of declarations is accepted in full when it is admissible

Each declaration is checked against the hierarchy as it stands when its turn comes. The conditions
of `Admissible` do not mention that hierarchy, and hence not the order of the list either.
-/

namespace ConstructorCheck

/-! ## What declarations add -/

namespace Declaration

/-- The class that a declaration adds to. -/
def owner? : Declaration → Option ClassId
  | .newClass .. => none
  | .implicitDefaultPoint id _ => some id
  | .base derived _ _ _ => some derived
  | .member owner .. => some owner
  | .constructor owner .. => some owner

def edge? : Declaration → Option (ClassId × ClassId)
  | .base a b _ _ => some (a, b)
  | _ => none

/-- The record of a member before it has a number. -/
def member? : Declaration → Option MemberDecl
  | .member owner name type access defaultInit? span =>
    some ⟨⟨0⟩, owner, name, type, access, defaultInit?.getD type.class?.isSome, span⟩
  | _ => none

/-- The record of a constructor before it has a number. -/
def constructor? : Declaration → Option ConstructorDecl
  | .constructor owner params access span => some ⟨⟨0⟩, owner, params, access, span⟩
  | _ => none

/-- The place of an implicit default constructor, with the class. -/
def point? : Declaration → Option (ClassId × Span)
  | .implicitDefaultPoint id point => some (id, point)
  | _ => none

/-- A direct base, with the derived class. -/
def base? : Declaration → Option (ClassId × BaseSpecifier)
  | .base derived b access span => some (derived, ⟨b, access, span⟩)
  | _ => none

/-- What a declaration changes in the record of a class, apart from what the class owns. -/
def onClass (id : ClassId) (c : ClassDecl) : Declaration → ClassDecl
  | .implicitDefaultPoint j point => if id = j then { c with implicitDefaultPoint := point } else c
  | .base a b access span =>
    if id = a then { c with bases := c.bases ++ [⟨b, access, span⟩] } else c
  | _ => c

end Declaration

def ClassDecl.unlisted (c : ClassDecl) : ClassDecl := { c with members := [], constructors := [] }

def MemberDecl.unnumbered (m : MemberDecl) : MemberDecl := { m with id := ⟨0⟩ }

def ConstructorDecl.unnumbered (k : ConstructorDecl) : ConstructorDecl := { k with id := ⟨0⟩ }

/-- The share of one class, in order. -/
def shareOf {β : Type} (id : ClassId) (l : List (ClassId × β)) : List β :=
  (l.filter fun e => e.1 = id).map (·.2)

theorem shareOf_cons {β : Type} (id : ClassId) (e : ClassId × β) (l : List (ClassId × β)) :
    shareOf id (e :: l) = if e.1 = id then e.2 :: shareOf id l else shareOf id l := by
  rw [shareOf, List.filter_cons]
  split
  · next hid => rw [if_pos (of_decide_eq_true hid), List.map_cons, shareOf]
  · next hid => rw [if_neg (by simpa using hid), shareOf]

/-- A class record takes the last point that is set for it and all bases, at the end of its list. -/
theorem foldl_onClass_eq_parts (id : ClassId) (ds : List Declaration) (c : ClassDecl) :
    ds.foldl (Declaration.onClass id) c =
      { c with
        implicitDefaultPoint :=
          (shareOf id (ds.filterMap Declaration.point?)).getLast?.getD c.implicitDefaultPoint
        bases := c.bases ++ shareOf id (ds.filterMap Declaration.base?) } := by
  induction ds generalizing c with
  | nil => simp [shareOf]
  | cons d ds ih =>
    rw [List.foldl_cons, ih]
    cases d with
    | implicitDefaultPoint j point =>
      by_cases hid : id = j
      · simp [Declaration.onClass, Declaration.point?, Declaration.base?, List.filterMap_cons,
          shareOf_cons, hid, List.getLast?_cons]
      · simp [Declaration.onClass, Declaration.point?, Declaration.base?, List.filterMap_cons,
          shareOf_cons, hid, Ne.symm hid]
    | base derived b access span =>
      by_cases hid : id = derived
      · simp [Declaration.onClass, Declaration.point?, Declaration.base?, List.filterMap_cons,
          shareOf_cons, hid]
      · simp [Declaration.onClass, Declaration.point?, Declaration.base?, List.filterMap_cons,
          shareOf_cons, hid, Ne.symm hid]
    | newClass | member | constructor =>
      simp [Declaration.onClass, Declaration.point?, Declaration.base?, List.filterMap_cons]

namespace Hierarchy

variable {g h h' : Hierarchy} {d : Declaration} {ds es : List Declaration} {r : Declared}

/-- Makes some declarations, up to the first one that is refused. -/
def extend (h : Hierarchy) (ds : List Declaration) : Except HierarchyError Hierarchy :=
  ds.foldlM (fun g d => (g.declare d).map (·.2)) h

theorem extend_append_eq_ok_iff :
    g.extend (ds ++ es) = .ok h' ↔ ∃ h, g.extend ds = .ok h ∧ h.extend es = .ok h' := by
  unfold extend
  rw [List.foldlM_append, bind_eq_ok_iff]

theorem extend_singleton_eq_ok_iff : g.extend [d] = .ok h ↔ ∃ r, g.Accepts d r h := by
  unfold extend
  rw [List.foldlM_cons, bind_eq_ok_iff]
  simp only [map_eq_ok_iff, ← declare_eq_ok_iff]
  constructor
  · rintro ⟨_, ⟨⟨r, h₁⟩, hd, rfl⟩, hok⟩
    cases hok
    exact ⟨r, hd⟩
  · rintro ⟨r, hd⟩
    exact ⟨h, ⟨(r, h), hd, rfl⟩, rfl⟩

theorem extend_preserves {P : Hierarchy → Prop}
    (hstep : ∀ {g d r g'}, g.Accepts d r g' → P g → P g') (hok : g.extend ds = .ok h) (hg : P g) :
    P h := by
  refine foldlM_preserves (fun {g d g'} hd hg => ?_) hok hg
  obtain ⟨⟨r, g'⟩, hdeclare, rfl⟩ := map_eq_ok_iff.1 hd
  exact hstep (declare_eq_ok_iff.1 hdeclare) hg

theorem extend_wellFormed (hok : g.extend ds = .ok h) (hw : g.WellFormed) : h.WellFormed :=
  extend_preserves (fun ha hw => hw.accepts ha) hok hw

theorem extend_shallow (hok : g.extend ds = .ok h) (hw : g.WellFormed) (hs : g.Shallow) :
    h.Shallow :=
  (extend_preserves (P := fun g => g.WellFormed ∧ g.Shallow)
    (fun ha hg => ⟨hg.1.accepts ha, hg.2.accepts hg.1 ha⟩) hok ⟨hw, hs⟩).2

/-- What the tables hold after declarations that add to declared classes. -/
structure Extends (g : Hierarchy) (ds : List Declaration) (h : Hierarchy) : Prop where
  names : h.names = g.names
  unlisted : ∀ id, (h.class? id).map ClassDecl.unlisted =
    (g.class? id).map fun c => ds.foldl (Declaration.onClass id) c.unlisted
  members : h.members.map MemberDecl.unnumbered =
    g.members.map MemberDecl.unnumbered ++ ds.filterMap Declaration.member?
  constructors : h.constructors.map ConstructorDecl.unnumbered =
    g.constructors.map ConstructorDecl.unnumbered ++ ds.filterMap Declaration.constructor?
  directBase : ∀ a b, h.DirectBase a b ↔ g.DirectBase a b ∨ (a, b) ∈ ds.filterMap Declaration.edge?

namespace Extends

theorem nil : Extends g [] g where
  names := rfl
  unlisted _ := rfl
  members := (List.append_nil _).symm
  constructors := (List.append_nil _).symm
  directBase a b := by simp

theorem append (h₁ : Extends g ds h) (h₂ : Extends h es h') : Extends g (ds ++ es) h' where
  names := h₂.names.trans h₁.names
  unlisted id := by
    have hcomp : (h'.class? id).map ClassDecl.unlisted =
        ((h.class? id).map ClassDecl.unlisted).map
          fun c => es.foldl (Declaration.onClass id) c := by
      rw [h₂.unlisted, Option.map_map]
      rfl
    rw [hcomp, h₁.unlisted, Option.map_map]
    simp only [Function.comp_def, List.foldl_append]
  members := by rw [h₂.members, h₁.members, List.filterMap_append, List.append_assoc]
  constructors := by rw [h₂.constructors, h₁.constructors, List.filterMap_append, List.append_assoc]
  directBase a b := by
    rw [h₂.directBase, h₁.directBase, List.filterMap_append, List.mem_append, or_assoc]

/-- **What one accepted declaration adds.** -/
theorem of_accepts (ha : g.Accepts d r h) (hd : d.owner? ≠ none) : Extends g [d] h := by
  cases ha with
  | newClass => exact absurd rfl hd
  | @implicitDefaultPoint id point c hc =>
    refine ⟨rfl, fun j => ?_, (List.append_nil _).symm, (List.append_nil _).symm, fun a b => ?_⟩
    · rw [class?_withPoint]
      simp only [List.foldl_cons, List.foldl_nil, Declaration.onClass]
      split
      · rw [Option.map_map]
        rfl
      · rfl
    · rw [directBase_congr fun _ => map_class?_withPoint g _ (fun _ => rfl) _]
      simp [Declaration.edge?]
  | @base derived base access span c b hc =>
    refine ⟨rfl, fun j => ?_, (List.append_nil _).symm, (List.append_nil _).symm, fun a b => ?_⟩
    · rw [class?_withBase]
      simp only [List.foldl_cons, List.foldl_nil, Declaration.onClass]
      split
      · rw [Option.map_map]
        rfl
      · rfl
    · rw [directBase_withBase hc]
      simp [Declaration.edge?]
  | member hc =>
    refine ⟨rfl, fun j => ?_, ?_, (List.append_nil _).symm, fun a b => ?_⟩
    · exact map_class?_withMember g ClassDecl.unlisted (fun _ => rfl) j
    · exact List.map_append
    · rw [directBase_congr fun _ => map_class?_withMember g _ (fun _ => rfl) _]
      simp [Declaration.edge?]
  | constructor hc =>
    refine ⟨rfl, fun j => ?_, (List.append_nil _).symm, ?_, fun a b => ?_⟩
    · exact map_class?_withConstructor g ClassDecl.unlisted (fun _ => rfl) j
    · exact List.map_append
    · rw [directBase_congr fun _ => map_class?_withConstructor g _ (fun _ => rfl) _]
      simp [Declaration.edge?]

theorem of_extend (hok : g.extend ds = .ok h) (hds : ∀ d ∈ ds, d.owner? ≠ none) :
    Extends g ds h := by
  induction ds using List.reverseRecOn generalizing h with
  | nil =>
    cases hok
    exact .nil
  | append_singleton ds d ih =>
    obtain ⟨h₁, hok, hd⟩ := extend_append_eq_ok_iff.1 hok
    obtain ⟨r, ha⟩ := extend_singleton_eq_ok_iff.1 hd
    have h₁ := ih hok fun d hd => hds d (List.mem_append_left _ hd)
    exact h₁.append (.of_accepts ha (hds d (List.mem_append_right _ (List.mem_singleton.2 rfl))))

/-- No class is declared, and none gets lost. -/
theorem exists_class?_iff (hx : Extends g ds h) {id : ClassId} :
    (∃ c, h.class? id = some c) ↔ ∃ c, g.class? id = some c := by
  have hsome := congrArg Option.isSome (hx.unlisted id)
  rw [Option.isSome_map, Option.isSome_map] at hsome
  rw [← Option.isSome_iff_exists, ← Option.isSome_iff_exists, hsome]

theorem knowsType_iff (hx : Extends g ds h) {t : TypeRef} :
    h.knowsType t = true ↔ g.knowsType t = true := by
  cases t with
  | primitive p => rfl
  | ofClass id => rw [knowsType_ofClass_iff, knowsType_ofClass_iff, hx.exists_class?_iff]

end Extends

/-! ## Admissible lists -/

/-- What a declaration needs of the declared classes, whatever else is declared. -/
def Fits (g : Hierarchy) : Declaration → Prop
  | .newClass .. => False
  | .implicitDefaultPoint id _ => ∃ c, g.class? id = some c
  | .base derived base _ _ => (∃ c, g.class? derived = some c) ∧ ∃ c, g.class? base = some c
  | .member owner _ type _ _ _ => (∃ c, g.class? owner = some c) ∧ g.knowsType type = true
  | .constructor owner params _ _ => (∃ c, g.class? owner = some c) ∧
    (∀ p ∈ params, g.knowsType p.type = true) ∧ defaultsTrail params = true

/-- What it takes for some declarations to be accepted one after the other. -/
structure Admissible (g : Hierarchy) (ds : List Declaration) : Prop where
  fits : ∀ d ∈ ds, g.Fits d
  edges_nodup : (ds.filterMap Declaration.edge?).Nodup
  edges_new : ∀ a b, (a, b) ∈ ds.filterMap Declaration.edge? → ¬ g.DirectBase a b
  /-- With all edges there is no chain beyond the limit. -/
  bounded : ∀ n a b, Chain (fun x y =>
    g.DirectBase x y ∨ (x, y) ∈ ds.filterMap Declaration.edge?) n a b → n ≤ maxDepth
  members_nodup : ((g.members.map MemberDecl.unnumbered ++
    ds.filterMap Declaration.member?).map memberSort.tag).Nodup
  constructors_nodup : ((g.constructors.map ConstructorDecl.unnumbered ++
    ds.filterMap Declaration.constructor?).map constructorSort.tag).Nodup

/-- What it takes for one declaration to be accepted. -/
structure Admits (h : Hierarchy) (d : Declaration) : Prop where
  fits : h.Fits d
  edge_new : ∀ a b, d.edge? = some (a, b) → ¬ h.DirectBase a b
  bounded : ∀ a b, d.edge? = some (a, b) → ∀ n x y,
    Chain (fun x y => h.DirectBase x y ∨ (x = a ∧ y = b)) n x y → n ≤ maxDepth
  member_new : ∀ m, d.member? = some m → memberSort.tag m ∉ h.members.map memberSort.tag
  constructor_new : ∀ k, d.constructor? = some k →
    constructorSort.tag k ∉ h.constructors.map constructorSort.tag

theorem inTable_members (h : Hierarchy) :
    InTable memberSort MemberId.number h.member? h.members := ⟨fun _ => rfl, fun _ => rfl⟩

theorem inTable_constructors (h : Hierarchy) :
    InTable constructorSort ConstructorId.number h.constructor? h.constructors :=
  ⟨fun _ => rfl, fun _ => rfl⟩

/-- A step back, or from a class to itself, would close a cycle. -/
theorem allowsBase_iff {derived base : ClassId} : h.AllowsBase derived base ↔
    (∃ c, h.class? derived = some c) ∧ (∃ c, h.class? base = some c) ∧
      ¬ h.DirectBase derived base ∧ ∀ n x y,
        Chain (fun x y => h.DirectBase x y ∨ (x = derived ∧ y = base)) n x y → n ≤ maxDepth := by
  constructor
  · exact fun ha => ⟨ha.derived_declared, ha.base_declared, ha.not_direct, ha.bounded⟩
  · rintro ⟨hd, hb, hnew, hbounded⟩
    have hacyclic := acyclic_of_bounded hbounded
    refine ⟨hd, hb, ?_, hnew, fun n hc => ?_, hbounded⟩
    · rintro rfl
      exact hacyclic 0 derived (.single (Or.inr ⟨rfl, rfl⟩))
    · exact hacyclic n base ((hc.mono fun _ _ => Or.inl).snoc (Or.inr ⟨rfl, rfl⟩))

theorem exists_accepts_base_iff (hw : h.WellFormed) (hs : h.Shallow) {derived base : ClassId}
    {access : Access} {span : Span} :
    (∃ r h', h.Accepts (.base derived base access span) r h') ↔ h.AllowsBase derived base := by
  constructor
  · rintro ⟨r, h', ha⟩
    cases ha with
    | base hd hb hne hnew hback hdepth =>
      have hno := (isDerivedFrom_eq_false_iff hne.symm).1 hback
      refine ⟨⟨_, hd⟩, ⟨_, hb⟩, hne, ?_, hno, (exceedsDepth_eq_false_iff hw hs hno).1 hdepth⟩
      rw [directBase_iff_of_class? hd]
      rintro ⟨s, hs, hbase⟩
      exact hnew s hs hbase
  · intro ha
    have hok := addBase_eq_ok_of_allows hw hs access span ha
    obtain ⟨d, b, hd, hb, hne, hnew, hback, hdepth, -⟩ := addBase_eq_ok_iff.1 hok
    exact ⟨_, _, .base hd hb hne hnew hback hdepth⟩

/-- **The declarations that a hierarchy admits are accepted.** -/
theorem exists_accepts_iff (hw : h.WellFormed) (hs : h.Shallow) (hd : d.owner? ≠ none) :
    (∃ r h', h.Accepts d r h') ↔ h.Admits d := by
  cases d with
  | newClass name span => exact absurd rfl hd
  | implicitDefaultPoint id point =>
    constructor
    · rintro ⟨_, _, ⟨⟩⟩
      exact ⟨⟨_, ‹_›⟩, nofun, nofun, nofun, nofun⟩
    · rintro ⟨⟨c, hc⟩, -⟩
      exact ⟨_, _, .implicitDefaultPoint hc⟩
  | base derived base access span =>
    rw [exists_accepts_base_iff hw hs, allowsBase_iff]
    constructor
    · rintro ⟨hd, hb, hnew, hbounded⟩
      refine ⟨⟨hd, hb⟩, ?_, ?_, nofun, nofun⟩
      · rintro _ _ ⟨⟩
        exact hnew
      · rintro _ _ ⟨⟩
        exact hbounded
    · rintro ⟨⟨hd, hb⟩, hnew, hbounded, -⟩
      exact ⟨hd, hb, hnew _ _ rfl, hbounded _ _ rfl⟩
  | member owner name type access defaultInit? span =>
    have hnew {c : ClassDecl} (hc : h.class? owner = some c) :
        ((owner, name) : ClassId × String) ∉ h.members.map memberSort.tag ↔
          ∀ m ∈ h.membersOf c, m.name ≠ name :=
      hw.owned_members.tag_notMem_iff h.inTable_members (by rw [hc]; rfl)
    constructor
    · rintro ⟨_, _, ha⟩
      cases ha with
      | member hc hname htype =>
        refine ⟨⟨⟨_, hc⟩, htype⟩, nofun, nofun, ?_, nofun⟩
        rintro _ ⟨⟩
        exact (hnew hc).2 hname
    · rintro ⟨⟨⟨c, hc⟩, htype⟩, -, -, hmember, -⟩
      exact ⟨_, _, .member hc ((hnew hc).1 (hmember _ rfl)) htype⟩
  | constructor owner params access span =>
    have hnew {c : ClassDecl} (hc : h.class? owner = some c) :
        ((owner, params.map (·.type)) : ClassId × List TypeRef) ∉
            h.constructors.map constructorSort.tag ↔
          ∀ k ∈ h.constructorsOf c, k.params.map (·.type) ≠ params.map (·.type) :=
      hw.owned_constructors.tag_notMem_iff h.inTable_constructors (by rw [hc]; rfl)
    constructor
    · rintro ⟨_, _, ha⟩
      cases ha with
      | constructor hc htypes htrail hsignature =>
        refine ⟨⟨⟨_, hc⟩, htypes, htrail⟩, nofun, nofun, nofun, ?_⟩
        rintro _ ⟨⟩
        exact (hnew hc).2 hsignature
    · rintro ⟨⟨⟨c, hc⟩, htypes, htrail⟩, -, -, -, hconstructor⟩
      exact ⟨_, _, .constructor hc htypes htrail ((hnew hc).1 (hconstructor _ rfl))⟩

/-! ## One declaration after the other -/

theorem filterMap_snoc {α β : Type} (f : α → Option β) (l : List α) (a : α) :
    (l ++ [a]).filterMap f = l.filterMap f ++ (f a).toList := by
  rw [List.filterMap_append]
  cases hb : f a <;> simp [hb]

theorem nodup_append_toList_iff {α : Type} {l : List α} {a? : Option α} :
    (l ++ a?.toList).Nodup ↔ l.Nodup ∧ ∀ a, a? = some a → a ∉ l := by
  cases a? with
  | none => simp
  | some a =>
    rw [Option.toList_some, List.nodup_append_comm, List.singleton_append, List.nodup_cons,
      and_comm]
    simp

theorem nodup_map_append_toList_iff {α β : Type} {l : List α} {a? : Option α} (f : α → β) :
    ((l ++ a?.toList).map f).Nodup ↔ (l.map f).Nodup ∧ ∀ a, a? = some a → f a ∉ l.map f := by
  have hmap : a?.toList.map f = (a?.map f).toList := by cases a? <;> rfl
  rw [List.map_append, hmap, nodup_append_toList_iff]
  simp only [Option.map_eq_some_iff, forall_exists_index, and_imp]
  exact and_congr_right fun _ =>
    ⟨fun hno a ha => hno _ a ha rfl, fun hno _ a ha hb => hb ▸ hno a ha⟩

/-- Tags do not look at numbers. -/
theorem Extends.map_tag_members (hx : Extends g ds h) :
    (g.members.map MemberDecl.unnumbered ++ ds.filterMap Declaration.member?).map memberSort.tag =
      h.members.map memberSort.tag := by
  rw [← hx.members, List.map_map]
  rfl

theorem Extends.map_tag_constructors (hx : Extends g ds h) :
    (g.constructors.map ConstructorDecl.unnumbered ++
      ds.filterMap Declaration.constructor?).map constructorSort.tag =
        h.constructors.map constructorSort.tag := by
  rw [← hx.constructors, List.map_map]
  rfl

theorem Extends.fits_iff (hx : Extends g ds h) : h.Fits d ↔ g.Fits d := by
  cases d with
  | newClass name span => rfl
  | implicitDefaultPoint id point => exact hx.exists_class?_iff
  | base derived base access span =>
    exact and_congr hx.exists_class?_iff hx.exists_class?_iff
  | member owner name type access defaultInit? span =>
    exact and_congr hx.exists_class?_iff hx.knowsType_iff
  | constructor owner params access span =>
    refine and_congr hx.exists_class?_iff (and_congr_left fun _ => ?_)
    exact forall₂_congr fun p _ => hx.knowsType_iff

/-- What is admissible stays so when some declarations are left out. -/
theorem Admissible.sublist (ha : g.Admissible ds) (hsub : es.Sublist ds) : g.Admissible es where
  fits d hd := ha.fits d (hsub.subset hd)
  edges_nodup := ha.edges_nodup.sublist (hsub.filterMap _)
  edges_new a b hab := ha.edges_new a b ((hsub.filterMap _).subset hab)
  bounded n a b hc :=
    ha.bounded n a b (hc.mono fun _ _ hxy => hxy.imp_right fun hxy => (hsub.filterMap _).subset hxy)
  members_nodup :=
    ha.members_nodup.sublist (((List.Sublist.refl _).append (hsub.filterMap _)).map _)
  constructors_nodup :=
    ha.constructors_nodup.sublist (((List.Sublist.refl _).append (hsub.filterMap _)).map _)

/-- **One more declaration has to be admitted by what the ones before build.** -/
theorem admissible_snoc_iff (hx : Extends g ds h) :
    g.Admissible (ds ++ [d]) ↔ g.Admissible ds ∧ h.Admits d := by
  have hedges : ∀ x y, (x, y) ∈ (ds ++ [d]).filterMap Declaration.edge? ↔
      (x, y) ∈ ds.filterMap Declaration.edge? ∨ d.edge? = some (x, y) := by
    intro x y
    rw [filterMap_snoc, List.mem_append, Option.mem_toList]
  constructor
  · intro hadm
    have hbefore := hadm.sublist (List.sublist_append_left ds [d])
    obtain ⟨hfits, hnodup, hnew, hbounded, hmembers, hconstructors⟩ := hadm
    rw [filterMap_snoc, nodup_append_toList_iff] at hnodup
    rw [filterMap_snoc, ← List.append_assoc, nodup_map_append_toList_iff, hx.map_tag_members]
      at hmembers
    rw [filterMap_snoc, ← List.append_assoc, nodup_map_append_toList_iff,
      hx.map_tag_constructors] at hconstructors
    refine ⟨hbefore, ⟨?_, fun a b hab => ?_,
      fun a b hab n x y hc => ?_, hmembers.2, hconstructors.2⟩⟩
    · exact hx.fits_iff.2 (hfits d (List.mem_append_right _ (List.mem_singleton.2 rfl)))
    · rw [hx.directBase, not_or]
      exact ⟨hnew a b ((hedges a b).2 (Or.inr hab)), hnodup.2 _ hab⟩
    · refine hbounded n x y (hc.mono fun x y hxy => ?_)
      rw [hedges]
      rcases hxy with hxy | ⟨rfl, rfl⟩
      · rcases (hx.directBase x y).1 hxy with hxy | hxy
        · exact Or.inl hxy
        · exact Or.inr (Or.inl hxy)
      · exact Or.inr (Or.inr hab)
  · rintro ⟨⟨hfits, hnodup, hnew, hbounded, hmembers, hconstructors⟩,
      ⟨hfit, hedge, hbound, hmember, hconstructor⟩⟩
    refine ⟨fun e he => ?_, ?_, fun a b hab => ?_, fun n a b hc => ?_, ?_, ?_⟩
    · rcases List.mem_append.1 he with he | he
      · exact hfits e he
      · rw [List.mem_singleton.1 he]
        exact hx.fits_iff.1 hfit
    · rw [filterMap_snoc, nodup_append_toList_iff]
      refine ⟨hnodup, fun ⟨a, b⟩ hab hmem => hedge a b hab ?_⟩
      exact (hx.directBase a b).2 (Or.inr hmem)
    · rcases (hedges a b).1 hab with hab | hab
      · exact hnew a b hab
      · exact fun hdirect => hedge a b hab ((hx.directBase a b).2 (Or.inl hdirect))
    · cases hd : d.edge? with
      | none =>
        refine hbounded n a b (hc.mono fun x y hxy => hxy.imp_right fun hxy => ?_)
        exact ((hedges x y).1 hxy).resolve_right (by simp [hd])
      | some e =>
        refine hbound e.1 e.2 hd n a b (hc.mono fun x y hxy => ?_)
        rw [hx.directBase, or_assoc]
        refine hxy.imp_right fun hxy => ((hedges x y).1 hxy).imp_right fun hxy => ?_
        rw [hd] at hxy
        cases hxy
        exact ⟨rfl, rfl⟩
    · rw [filterMap_snoc, ← List.append_assoc, nodup_map_append_toList_iff, hx.map_tag_members]
      exact ⟨by rwa [← hx.map_tag_members], hmember⟩
    · rw [filterMap_snoc, ← List.append_assoc, nodup_map_append_toList_iff,
        hx.map_tag_constructors]
      exact ⟨by rwa [← hx.map_tag_constructors], hconstructor⟩

theorem admissible_nil (hw : g.WellFormed) (hs : g.Shallow) : g.Admissible [] where
  fits d hd := absurd hd List.not_mem_nil
  edges_nodup := .nil
  edges_new _ _ hab := absurd hab List.not_mem_nil
  bounded n a b hc := hs n a b (hc.mono fun _ _ hxy => hxy.resolve_right List.not_mem_nil)
  members_nodup := by
    rw [Extends.nil.map_tag_members]
    exact hw.owned_members.tags_nodup g.inTable_members
  constructors_nodup := by
    rw [Extends.nil.map_tag_constructors]
    exact hw.owned_constructors.tags_nodup g.inTable_constructors

/-- **A list of declarations is accepted in full when it is admissible.** -/
theorem exists_extend_iff (hw : g.WellFormed) (hs : g.Shallow)
    (hds : ∀ d ∈ ds, d.owner? ≠ none) : (∃ h, g.extend ds = .ok h) ↔ g.Admissible ds := by
  induction ds using List.reverseRecOn with
  | nil => exact iff_of_true ⟨g, rfl⟩ (admissible_nil hw hs)
  | append_singleton ds d ih =>
    have hds' : ∀ d ∈ ds, d.owner? ≠ none := fun e he => hds e (List.mem_append_left _ he)
    have hd := hds d (List.mem_append_right _ (List.mem_singleton.2 rfl))
    -- what the list without its last declaration builds decides about the last one
    have hstep {h : Hierarchy} (hok : g.extend ds = .ok h) :
        g.Admissible (ds ++ [d]) ↔ ∃ h', h.extend [d] = .ok h' := by
      have hx := Extends.of_extend hok hds'
      have hadm := (ih hds').1 ⟨h, hok⟩
      rw [admissible_snoc_iff hx, and_iff_right hadm, ← exists_accepts_iff
        (extend_wellFormed hok hw) (extend_shallow hok hw hs) hd, exists_comm]
      simp only [extend_singleton_eq_ok_iff]
    constructor
    · rintro ⟨h', hok⟩
      obtain ⟨h, hok, hlast⟩ := extend_append_eq_ok_iff.1 hok
      exact (hstep hok).2 ⟨h', hlast⟩
    · intro hadm
      obtain ⟨h, hok⟩ := (ih hds').2 (hadm.sublist (List.sublist_append_left ds [d]))
      obtain ⟨h', hlast⟩ := (hstep hok).1 hadm
      exact ⟨h', extend_append_eq_ok_iff.2 ⟨h, hok, hlast⟩⟩

end Hierarchy

end ConstructorCheck
