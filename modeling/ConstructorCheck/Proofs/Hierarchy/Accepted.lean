import ConstructorCheck.Hierarchy.History
import ConstructorCheck.Proofs.Results
import Mathlib.Data.List.Induction
/-!
# Accepted declarations

What each accepted declaration does to the tables, said once. `Accepts` has one case for each sort
of declaration, with all its conditions and the hierarchy that results; `declare_eq_ok_iff` says
that these are exactly the accepted declarations.

The resulting hierarchies are `withClass`, `withPoint`, `withBase`, `withMember` and
`withConstructor`. A record is appended at the end of its table, so records keep their ids; besides,
at most one class record changes, and it gets one new entry or another span.
-/

namespace ConstructorCheck.Hierarchy

variable (h : Hierarchy)

/-! ## The resulting hierarchies -/

/-- The hierarchy with one more class, which is still without content. -/
def withClass (name : String) (span : Span) : Hierarchy :=
  { h with
    classes := h.classes ++ [⟨⟨h.classes.length⟩, name, span, span, [], [], []⟩]
    names := (name, ⟨h.classes.length⟩) :: h.names }

/-- The hierarchy with another place for one implicit default constructor. -/
def withPoint (id : ClassId) (point : Span) : Hierarchy :=
  h.modifyClass id fun c => { c with implicitDefaultPoint := point }

/-- The hierarchy with one more direct base of a class. -/
def withBase (derived : ClassId) (b : BaseSpecifier) : Hierarchy :=
  h.modifyClass derived fun c => { c with bases := c.bases ++ [b] }

/-- The hierarchy with one more member, listed by its owner. -/
def withMember (m : MemberDecl) : Hierarchy :=
  { h with members := h.members ++ [m] }.modifyClass m.owner fun c =>
    { c with members := c.members ++ [m.id] }

/-- The hierarchy with one more constructor, listed by its owner. -/
def withConstructor (k : ConstructorDecl) : Hierarchy :=
  { h with constructors := h.constructors ++ [k] }.modifyClass k.owner fun c =>
    { c with constructors := c.constructors ++ [k.id] }

/-! ## The tables of the resulting hierarchies -/

theorem getElem?_snoc {α : Type} (l : List α) (a : α) (i : Nat) :
    (l ++ [a])[i]? = if i = l.length then some a else l[i]? := by
  split
  · next hi => rw [hi, List.getElem?_concat_length]
  · next hi =>
    rcases Nat.lt_or_gt_of_ne hi with hlt | hgt
    · exact List.getElem?_append_left hlt
    · rw [List.getElem?_eq_none (by simp; omega), List.getElem?_eq_none (by omega)]

@[simp] theorem class?_empty (id : ClassId) : empty.class? id = none := rfl

theorem class?_modifyClass (id j : ClassId) (f : ClassDecl → ClassDecl) :
    (h.modifyClass id f).class? j = if j = id then (h.class? j).map f else h.class? j := by
  have hindex : id.index = j.index ↔ j = id := by
    rcases id with ⟨i⟩
    rcases j with ⟨k⟩
    simp [eq_comm]
  simp only [modifyClass, class?, List.getElem?_modify, hindex]
  split <;> simp

theorem class?_withClass (name : String) (span : Span) (j : ClassId) :
    (h.withClass name span).class? j =
      if j = ⟨h.classes.length⟩ then some ⟨j, name, span, span, [], [], []⟩ else h.class? j := by
  rcases j with ⟨j⟩
  simp only [withClass, class?, ClassId.mk.injEq, getElem?_snoc]
  split
  · next hj => rw [hj]
  · rfl

theorem names_withClass (name : String) (span : Span) :
    (h.withClass name span).names = (name, ⟨h.classes.length⟩) :: h.names := rfl

theorem class?_withPoint (id : ClassId) (point : Span) (j : ClassId) :
    (h.withPoint id point).class? j =
      if j = id then (h.class? j).map fun c => { c with implicitDefaultPoint := point }
      else h.class? j := h.class?_modifyClass ..

theorem class?_withBase (derived : ClassId) (b : BaseSpecifier) (j : ClassId) :
    (h.withBase derived b).class? j =
      if j = derived then (h.class? j).map fun c => { c with bases := c.bases ++ [b] }
      else h.class? j := h.class?_modifyClass ..

theorem class?_withMember (m : MemberDecl) (j : ClassId) :
    (h.withMember m).class? j =
      if j = m.owner then (h.class? j).map fun c => { c with members := c.members ++ [m.id] }
      else h.class? j := class?_modifyClass ..

theorem class?_withConstructor (k : ConstructorDecl) (j : ClassId) :
    (h.withConstructor k).class? j =
      if j = k.owner then
        (h.class? j).map fun c => { c with constructors := c.constructors ++ [k.id] }
      else h.class? j := class?_modifyClass ..

theorem member?_withMember (m : MemberDecl) (j : MemberId) :
    (h.withMember m).member? j = if j = ⟨h.members.length⟩ then some m else h.member? j := by
  rcases j with ⟨j⟩
  simp only [withMember, modifyClass, member?, MemberId.mk.injEq, getElem?_snoc]

theorem constructor?_withConstructor (k : ConstructorDecl) (j : ConstructorId) :
    (h.withConstructor k).constructor? j =
      if j = ⟨h.constructors.length⟩ then some k else h.constructor? j := by
  rcases j with ⟨j⟩
  simp only [withConstructor, modifyClass, constructor?, ConstructorId.mk.injEq, getElem?_snoc]

/-! ## Fields that stay -/

section Stay

variable {β : Type}

theorem map_class?_modifyClass {f : ClassDecl → ClassDecl} (π : ClassDecl → β)
    (hf : ∀ c, π (f c) = π c) (id j : ClassId) :
    ((h.modifyClass id f).class? j).map π = (h.class? j).map π := by
  rw [class?_modifyClass]
  split
  · rw [Option.map_map, funext hf (f := π ∘ f)]
  · rfl

/-- A new class starts with an empty list of whatever a class lists. -/
theorem map_class?_withClass (π : ClassDecl → List β)
    (hπ : ∀ id name span, π ⟨id, name, span, span, [], [], []⟩ = [])
    (name : String) (span : Span) (j : ClassId) :
    ((h.withClass name span).class? j).map π =
      if j = ⟨h.classes.length⟩ then some [] else (h.class? j).map π := by
  rw [class?_withClass]
  split
  · rw [Option.map_some, hπ]
  · rfl

theorem map_class?_withPoint {point : Span} (π : ClassDecl → β)
    (hπ : ∀ c, π { c with implicitDefaultPoint := point } = π c) {id : ClassId} (j : ClassId) :
    ((h.withPoint id point).class? j).map π = (h.class? j).map π :=
  h.map_class?_modifyClass π hπ id j

theorem map_class?_withBase {b : BaseSpecifier} (π : ClassDecl → β)
    (hπ : ∀ c, π { c with bases := c.bases ++ [b] } = π c) {derived : ClassId} (j : ClassId) :
    ((h.withBase derived b).class? j).map π = (h.class? j).map π :=
  h.map_class?_modifyClass π hπ derived j

theorem map_class?_withMember {m : MemberDecl} (π : ClassDecl → β)
    (hπ : ∀ c, π { c with members := c.members ++ [m.id] } = π c) (j : ClassId) :
    ((h.withMember m).class? j).map π = (h.class? j).map π :=
  map_class?_modifyClass _ π hπ m.owner j

theorem map_class?_withConstructor {k : ConstructorDecl} (π : ClassDecl → β)
    (hπ : ∀ c, π { c with constructors := c.constructors ++ [k.id] } = π c) (j : ClassId) :
    ((h.withConstructor k).class? j).map π = (h.class? j).map π :=
  map_class?_modifyClass _ π hπ k.owner j

end Stay

/-! ## Accepted declarations -/

/-- What a declaration needs to be accepted, with its answer and the hierarchy that it leads to. -/
inductive Accepts (h : Hierarchy) : Declaration → Declared → Hierarchy → Prop where
  | newClass {name : String} {span : Span} (hname : h.names.lookup name = none) :
    Accepts h (.newClass name span) (.ofClass ⟨h.classes.length⟩) (h.withClass name span)
  | implicitDefaultPoint {id : ClassId} {point : Span} {c : ClassDecl} (hc : h.class? id = some c) :
    Accepts h (.implicitDefaultPoint id point) .nothing (h.withPoint id point)
  | base {derived base : ClassId} {access : Access} {span : Span} {d b : ClassDecl}
      (hd : h.class? derived = some d) (hb : h.class? base = some b) (hne : derived ≠ base)
      (hnew : ∀ s ∈ d.bases, s.base ≠ base) (hback : h.isDerivedFrom base derived = false)
      (hdepth : h.exceedsDepth derived base = false) :
    Accepts h (.base derived base access span) .nothing (h.withBase derived ⟨base, access, span⟩)
  | member {owner : ClassId} {name : String} {type : TypeRef} {access : Access}
      {defaultInit? : Option Bool} {span : Span} {c : ClassDecl} (hc : h.class? owner = some c)
      (hnew : ∀ m ∈ h.membersOf c, m.name ≠ name) (htype : h.knowsType type = true) :
    Accepts h (.member owner name type access defaultInit? span) (.ofMember ⟨h.members.length⟩)
      (h.withMember ⟨⟨h.members.length⟩, owner, name, type, access,
        defaultInit?.getD type.class?.isSome, span⟩)
  | constructor {owner : ClassId} {params : List Param} {access : Access} {span : Span}
      {c : ClassDecl} (hc : h.class? owner = some c)
      (htypes : ∀ p ∈ params, h.knowsType p.type = true) (htrail : defaultsTrail params = true)
      (hnew : ∀ k ∈ h.constructorsOf c, k.params.map (·.type) ≠ params.map (·.type)) :
    Accepts h (.constructor owner params access span) (.ofConstructor ⟨h.constructors.length⟩)
      (h.withConstructor ⟨⟨h.constructors.length⟩, owner, params, access, span⟩)

variable {h} {h' : Hierarchy}

theorem getClass_eq_ok_iff {id : ClassId} {c : ClassDecl} :
    h.getClass id = .ok c ↔ h.class? id = some c := by
  unfold getClass
  cases h.class? id <;> simp

theorem getMember_eq_ok_iff {id : MemberId} {m : MemberDecl} :
    h.getMember id = .ok m ↔ h.member? id = some m := by
  unfold getMember
  cases h.member? id <;> simp

theorem classByName_eq_ok_iff {name : String} {id : ClassId} :
    h.classByName name = .ok id ↔ h.names.lookup name = some id := by
  unfold classByName
  cases h.names.lookup name <;> simp

theorem declaredClass_eq_ok_iff {id : ClassId} {c : ClassDecl} :
    h.declaredClass id = .ok c ↔ h.class? id = some c := by
  unfold declaredClass
  cases h.class? id <;> simp

/-- An unknown type is of class sort, so the search for one ends with its class. -/
theorem firstUnknown?_eq_none_iff {types : List TypeRef} :
    h.firstUnknown? types = none ↔ ∀ t ∈ types, h.knowsType t = true := by
  unfold firstUnknown?
  rw [Option.bind_eq_none_iff]
  constructor
  · intro hnone t ht
    cases hfind : types.find? fun t => !h.knowsType t with
    | none => simpa using List.find?_eq_none.1 hfind t ht
    | some u =>
      have hu := List.find?_some hfind
      have := hnone u hfind
      cases u with
      | primitive p => simp [knowsType] at hu
      | ofClass id => simp [TypeRef.class?] at this
  · intro hall t hfind
    have := List.find?_some hfind
    simp [hall t (List.mem_of_find?_eq_some hfind)] at this

theorem declareClass_eq_ok_iff {name : String} {span : Span} {id : ClassId} :
    h.declareClass name span = .ok (id, h') ↔
      h.names.lookup name = none ∧ id = ⟨h.classes.length⟩ ∧ h' = h.withClass name span := by
  unfold declareClass
  cases h.names.lookup name with
  | none => simp [withClass, eq_comm]
  | some _ => simp

theorem setImplicitDefaultPoint_eq_ok_iff {id : ClassId} {point : Span} :
    h.setImplicitDefaultPoint id point = .ok h' ↔
      (∃ c, h.class? id = some c) ∧ h' = h.withPoint id point := by
  unfold setImplicitDefaultPoint
  rw [bind_eq_ok_iff]
  simp only [declaredClass_eq_ok_iff]
  constructor
  · rintro ⟨c, hc, he⟩
    exact ⟨⟨c, hc⟩, (Except.ok.inj he).symm⟩
  · rintro ⟨⟨c, hc⟩, rfl⟩
    exact ⟨c, hc, rfl⟩

theorem addBase_eq_ok_iff {derived base : ClassId} {access : Access} {span : Span} :
    h.addBase derived base access span = .ok h' ↔
      ∃ d b, h.class? derived = some d ∧ h.class? base = some b ∧ derived ≠ base ∧
        (∀ s ∈ d.bases, s.base ≠ base) ∧ h.isDerivedFrom base derived = false ∧
        h.exceedsDepth derived base = false ∧ h' = h.withBase derived ⟨base, access, span⟩ := by
  simp only [addBase, bind_eq_ok_iff, declaredClass_eq_ok_iff]
  constructor
  · rintro ⟨d, hd, b, hb, he⟩
    split at he
    · cases he
    · next hne =>
      split at he
      · cases he
      · next hnew =>
        split at he
        · cases he
        · next hback =>
          split at he
          · cases he
          · next hdepth =>
            refine ⟨d, b, hd, hb, hne, by simpa using hnew, by simpa using hback,
              by simpa using hdepth, (Except.ok.inj he).symm⟩
  · rintro ⟨d, b, hd, hb, hne, hnew, hback, hdepth, rfl⟩
    refine ⟨d, hd, b, hb, ?_⟩
    rw [if_neg hne, if_neg (by simpa using hnew), if_neg (by simp [hback]),
      if_neg (by simp [hdepth])]
    rfl

theorem addMember_eq_ok_iff {owner : ClassId} {name : String} {type : TypeRef} {access : Access}
    {defaultInit? : Option Bool} {span : Span} {id : MemberId} :
    h.addMember owner name type access defaultInit? span = .ok (id, h') ↔
      ∃ c, h.class? owner = some c ∧ (∀ m ∈ h.membersOf c, m.name ≠ name) ∧
        h.knowsType type = true ∧ id = ⟨h.members.length⟩ ∧
        h' = h.withMember ⟨⟨h.members.length⟩, owner, name, type, access,
          defaultInit?.getD type.class?.isSome, span⟩ := by
  have htype : h.firstUnknown? [type] = none ↔ h.knowsType type = true := by
    simp [firstUnknown?_eq_none_iff]
  simp only [addMember, bind_eq_ok_iff, declaredClass_eq_ok_iff]
  refine exists_congr fun c => and_congr_right fun _ => ?_
  constructor
  · intro he
    split at he
    · cases he
    · next hnew =>
      split at he
      · cases he
      · next hknown =>
        cases he
        exact ⟨by simpa using hnew, htype.1 hknown, rfl, rfl⟩
  · rintro ⟨hnew, hknown, rfl, rfl⟩
    rw [if_neg (by simpa using hnew), htype.2 hknown]
    rfl

theorem addConstructor_eq_ok_iff {owner : ClassId} {params : List Param} {access : Access}
    {span : Span} {id : ConstructorId} :
    h.addConstructor owner params access span = .ok (id, h') ↔
      ∃ c, h.class? owner = some c ∧ (∀ p ∈ params, h.knowsType p.type = true) ∧
        defaultsTrail params = true ∧
        (∀ k ∈ h.constructorsOf c, k.params.map (·.type) ≠ params.map (·.type)) ∧
        id = ⟨h.constructors.length⟩ ∧
        h' = h.withConstructor ⟨⟨h.constructors.length⟩, owner, params, access, span⟩ := by
  have htypes : h.firstUnknown? (params.map (·.type)) = none ↔
      ∀ p ∈ params, h.knowsType p.type = true := by
    simp [firstUnknown?_eq_none_iff]
  simp only [addConstructor, bind_eq_ok_iff, declaredClass_eq_ok_iff]
  refine exists_congr fun c => and_congr_right fun _ => ?_
  constructor
  · intro he
    split at he
    · cases he
    · next hknown =>
      split at he
      · cases he
      · next htrail =>
        split at he
        · cases he
        · next hnew =>
          cases he
          exact ⟨htypes.1 hknown, by simpa using htrail, by simpa [sameTypes] using hnew, rfl, rfl⟩
  · rintro ⟨hknown, htrail, hnew, rfl, rfl⟩
    rw [htypes.2 hknown]
    simp only [htrail, Bool.not_true, Bool.false_eq_true, if_false]
    rw [if_neg (by simpa [sameTypes] using hnew)]
    rfl

/-- **The accepted declarations and what they do.** -/
theorem declare_eq_ok_iff {d : Declaration} {r : Declared} :
    h.declare d = .ok (r, h') ↔ h.Accepts d r h' := by
  constructor
  · intro he
    cases d with
    | newClass name span =>
      obtain ⟨⟨id, g⟩, hok, hr⟩ := map_eq_ok_iff.1 he
      cases hr
      obtain ⟨hname, rfl, rfl⟩ := declareClass_eq_ok_iff.1 hok
      exact .newClass hname
    | implicitDefaultPoint id point =>
      obtain ⟨g, hok, hr⟩ := map_eq_ok_iff.1 he
      cases hr
      obtain ⟨⟨c, hc⟩, rfl⟩ := setImplicitDefaultPoint_eq_ok_iff.1 hok
      exact .implicitDefaultPoint hc
    | base derived base access span =>
      obtain ⟨g, hok, hr⟩ := map_eq_ok_iff.1 he
      cases hr
      obtain ⟨d, b, hd, hb, hne, hnew, hback, hdepth, rfl⟩ := addBase_eq_ok_iff.1 hok
      exact .base hd hb hne hnew hback hdepth
    | member owner name type access defaultInit? span =>
      obtain ⟨⟨id, g⟩, hok, hr⟩ := map_eq_ok_iff.1 he
      cases hr
      obtain ⟨c, hc, hnew, htype, rfl, rfl⟩ := addMember_eq_ok_iff.1 hok
      exact .member hc hnew htype
    | constructor owner params access span =>
      obtain ⟨⟨id, g⟩, hok, hr⟩ := map_eq_ok_iff.1 he
      cases hr
      obtain ⟨c, hc, htypes, htrail, hnew, rfl, rfl⟩ := addConstructor_eq_ok_iff.1 hok
      exact .constructor hc htypes htrail hnew
  · intro ha
    cases ha with
    | newClass hname =>
      exact map_eq_ok_iff.2 ⟨_, declareClass_eq_ok_iff.2 ⟨hname, rfl, rfl⟩, rfl⟩
    | implicitDefaultPoint hc =>
      exact map_eq_ok_iff.2 ⟨_, setImplicitDefaultPoint_eq_ok_iff.2 ⟨⟨_, hc⟩, rfl⟩, rfl⟩
    | base hd hb hne hnew hback hdepth =>
      refine map_eq_ok_iff.2 ⟨_, addBase_eq_ok_iff.2 ?_, rfl⟩
      exact ⟨_, _, hd, hb, hne, hnew, hback, hdepth, rfl⟩
    | member hc hnew htype =>
      exact map_eq_ok_iff.2 ⟨_, addMember_eq_ok_iff.2 ⟨_, hc, hnew, htype, rfl, rfl⟩, rfl⟩
    | constructor hc htypes htrail hnew =>
      refine map_eq_ok_iff.2 ⟨_, addConstructor_eq_ok_iff.2 ?_, rfl⟩
      exact ⟨_, hc, htypes, htrail, hnew, rfl, rfl⟩

/-! ## Runs -/

theorem run_append (h : Hierarchy) (ds es : List Declaration) :
    h.run (ds ++ es) = (h.run ds).run es := List.foldl_append

theorem Reachable.empty : Reachable empty := ⟨[], rfl⟩

theorem Reachable.step {h : Hierarchy} (hr : h.Reachable) (d : Declaration) :
    (h.step d).Reachable := by
  obtain ⟨ds, rfl⟩ := hr
  exact ⟨ds ++ [d], run_append _ ds [d]⟩

theorem Reachable.accepts {d : Declaration} {r : Declared} (hr : h.Reachable)
    (ha : h.Accepts d r h') : h'.Reachable := by
  have hstep := hr.step d
  rwa [Hierarchy.step, declare_eq_ok_iff.2 ha] at hstep

/--
What the empty hierarchy has and every accepted declaration preserves, every reachable hierarchy
has: a refused declaration changes nothing.
-/
theorem Reachable.induction {P : Hierarchy → Prop} (hempty : P Hierarchy.empty)
    (haccepts : ∀ {h h' : Hierarchy} {d : Declaration} {r : Declared},
      h.Reachable → P h → h.Accepts d r h' → P h')
    (hr : h.Reachable) : P h := by
  obtain ⟨ds, rfl⟩ := hr
  induction ds using List.reverseRecOn with
  | nil => exact hempty
  | append_singleton ds d ih =>
    rw [run_append]
    show P ((Hierarchy.empty.run ds).step d)
    unfold Hierarchy.step
    -- the last declaration is accepted or leaves everything as it was
    split
    · next r hok => exact haccepts ⟨ds, rfl⟩ ih (declare_eq_ok_iff.1 hok)
    · exact ih

end ConstructorCheck.Hierarchy
