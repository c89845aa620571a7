import ConstructorCheck.Proofs.Hierarchy.Accepted
import ConstructorCheck.Proofs.Hierarchy.Owned
/-!
# Well-formed hierarchies

What the declarations keep true of the tables of a hierarchy, and what everything that reads a
hierarchy relies on without checking it again.

* `ClassTable`, `MemberTable`, `ConstructorTable` — what holds of each sort of record
* `WellFormed` — all of it
* `Reachable.wellFormed` — every hierarchy that declarations build is well-formed

An accepted declaration adds one entry to one table, or changes one class. The other tables stay
well-formed because they are about other parts of the class records, which stay as they are.
-/

namespace ConstructorCheck

/-- The parts of a class record that the class table is about. -/
def ClassDecl.head (c : ClassDecl) : ClassId × String × List BaseSpecifier :=
  (c.id, c.name, c.bases)

namespace Hierarchy

/-! ## Well-formedness -/

/-- What holds of the classes, their names and their bases. -/
structure ClassTable (h : Hierarchy) : Prop where
  class_id : ∀ {id c}, h.class? id = some c → c.id = id
  lookup_name : ∀ {name id},
    h.names.lookup name = some id ↔ ∃ c, h.class? id = some c ∧ c.name = name
  base_declared : ∀ {id c}, h.class? id = some c → ∀ s ∈ c.bases, ∃ b, h.class? s.base = some b
  base_ne : ∀ {id c}, h.class? id = some c → ∀ s ∈ c.bases, s.base ≠ id
  bases_nodup : ∀ {id c}, h.class? id = some c → (c.bases.map (·.base)).Nodup

/-- What holds of the members. -/
structure MemberTable (h : Hierarchy) : Prop where
  owned_members : Owned memberSort (fun id => (h.class? id).map (·.members)) h.member?
  member_type : ∀ {id m}, h.member? id = some m → h.knowsType m.type = true

/-- What holds of the constructors. -/
structure ConstructorTable (h : Hierarchy) : Prop where
  owned_constructors :
    Owned constructorSort (fun id => (h.class? id).map (·.constructors)) h.constructor?
  param_type : ∀ {id k}, h.constructor? id = some k → ∀ p ∈ k.params, h.knowsType p.type = true
  defaults_trail : ∀ {id k}, h.constructor? id = some k → defaultsTrail k.params = true

/-- The tables of a hierarchy fit together. -/
structure WellFormed (h : Hierarchy) : Prop extends ClassTable h, MemberTable h, ConstructorTable h

variable {h h' : Hierarchy}

/-! ## Classes -/

theorem class?_eq_none_iff {id : ClassId} : h.class? id = none ↔ h.classes.length ≤ id.index :=
  List.getElem?_eq_none_iff

theorem exists_class?_iff {id : ClassId} :
    (∃ c, h.class? id = some c) ↔ id.index < h.classes.length := by
  rw [← Option.isSome_iff_exists, class?, isSome_getElem?]

theorem knowsType_ofClass_iff {id : ClassId} :
    h.knowsType (.ofClass id) = true ↔ ∃ c, h.class? id = some c := by
  rw [exists_class?_iff, knowsType, decide_eq_true_iff]

theorem knowsType_mono (hlen : h.classes.length ≤ h'.classes.length) {t : TypeRef}
    (ht : h.knowsType t = true) : h'.knowsType t = true := by
  cases t with
  | primitive p => rfl
  | ofClass id =>
    simp only [knowsType, decide_eq_true_iff] at ht ⊢
    omega

/-- Only the names and the bases of the classes count. -/
theorem ClassTable.congr (ht : h.ClassTable) (hnames : h'.names = h.names)
    (hclass : ∀ id, (h'.class? id).map ClassDecl.head = (h.class? id).map ClassDecl.head) :
    h'.ClassTable := by
  have hback {id : ClassId} {c' : ClassDecl} (hc : h'.class? id = some c') :
      ∃ c, h.class? id = some c ∧ c.head = c'.head :=
    Option.map_eq_some_iff.1 (by rw [← hclass, hc]; rfl)
  have hforth {id : ClassId} {c : ClassDecl} (hc : h.class? id = some c) :
      ∃ c', h'.class? id = some c' ∧ c'.head = c.head :=
    Option.map_eq_some_iff.1 (by rw [hclass, hc]; rfl)
  -- each clause is about the heads, so it goes over from the record before
  refine ⟨?_, ?_, ?_, ?_, ?_⟩
  · intro id c' hc'
    obtain ⟨c, hc, hhead⟩ := hback hc'
    simp only [ClassDecl.head, Prod.mk.injEq] at hhead
    rw [← hhead.1, ht.class_id hc]
  · intro name id
    rw [hnames, ht.lookup_name]
    constructor
    · rintro ⟨c, hc, hname⟩
      obtain ⟨c', hc', hhead⟩ := hforth hc
      simp only [ClassDecl.head, Prod.mk.injEq] at hhead
      exact ⟨c', hc', hhead.2.1.trans hname⟩
    · rintro ⟨c', hc', hname⟩
      obtain ⟨c, hc, hhead⟩ := hback hc'
      simp only [ClassDecl.head, Prod.mk.injEq] at hhead
      exact ⟨c, hc, hhead.2.1.trans hname⟩
  · intro id c' hc' s hs
    obtain ⟨c, hc, hhead⟩ := hback hc'
    simp only [ClassDecl.head, Prod.mk.injEq] at hhead
    obtain ⟨b, hb⟩ := ht.base_declared hc s (hhead.2.2 ▸ hs)
    obtain ⟨b', hb', -⟩ := hforth hb
    exact ⟨b', hb'⟩
  · intro id c' hc' s hs
    obtain ⟨c, hc, hhead⟩ := hback hc'
    simp only [ClassDecl.head, Prod.mk.injEq] at hhead
    exact ht.base_ne hc s (hhead.2.2 ▸ hs)
  · intro id c' hc'
    obtain ⟨c, hc, hhead⟩ := hback hc'
    simp only [ClassDecl.head, Prod.mk.injEq] at hhead
    rw [← hhead.2.2]
    exact ht.bases_nodup hc

theorem ClassTable.empty : Hierarchy.empty.ClassTable where
  class_id hc := by cases hc
  lookup_name := by simp [show Hierarchy.empty.names = [] from rfl]
  base_declared hc := by cases hc
  base_ne hc := by cases hc
  bases_nodup hc := by cases hc

/-- A new class brings a new name and no bases. -/
theorem ClassTable.withClass (ht : h.ClassTable) {name : String} (span : Span)
    (hname : h.names.lookup name = none) : (h.withClass name span).ClassTable := by
  have hnew : h.class? ⟨h.classes.length⟩ = none := class?_eq_none_iff.2 (Nat.le_refl _)
  have hkeep {id : ClassId} {c : ClassDecl} (hc : h.class? id = some c) :
      (h.withClass name span).class? id = some c := by
    rw [class?_withClass, if_neg fun hid => by simp [hid, hnew] at hc, hc]
  refine ⟨?_, ?_, ?_, ?_, ?_⟩
  · intro id c hc
    rw [class?_withClass] at hc
    split at hc
    · cases hc
      rfl
    · exact ht.class_id hc
  · intro name' id
    simp only [class?_withClass, names_withClass, List.lookup_cons]
    by_cases heq : name' = name
    · subst heq
      simp only [beq_self_eq_true, Option.some.injEq]
      constructor
      · rintro rfl
        exact ⟨_, if_pos rfl, rfl⟩
      · rintro ⟨c, hc, hcn⟩
        split at hc
        · next hid => exact hid.symm
        · -- the name is new, so no other class has it
          rw [ht.lookup_name.2 ⟨c, hc, hcn⟩] at hname
          cases hname
    · rw [beq_false_of_ne heq, ht.lookup_name]
      refine exists_congr fun c => and_congr_left fun hcn => ?_
      split
      · next hid =>
        subst hid
        simp only [hnew, reduceCtorEq, Option.some.injEq, false_iff]
        rintro rfl
        exact heq hcn.symm
      · rfl
  · intro id c hc s hs
    rw [class?_withClass] at hc
    split at hc
    · cases hc
      cases hs
    · obtain ⟨b, hb⟩ := ht.base_declared hc s hs
      exact ⟨b, hkeep hb⟩
  · intro id c hc s hs
    rw [class?_withClass] at hc
    split at hc
    · cases hc
      cases hs
    · exact ht.base_ne hc s hs
  · intro id c hc
    rw [class?_withClass] at hc
    split at hc
    · cases hc
      exact .nil
    · exact ht.bases_nodup hc

/-- With one more base of one class, each class is as before but for its list of bases. -/
theorem exists_class?_of_withBase {derived id : ClassId} {b : BaseSpecifier} {c' : ClassDecl}
    (hc : (h.withBase derived b).class? id = some c') :
    ∃ c, h.class? id = some c ∧ c'.id = c.id ∧ c'.name = c.name ∧
      c'.bases = if id = derived then c.bases ++ [b] else c.bases := by
  rw [class?_withBase] at hc
  split at hc
  · next hid =>
    obtain ⟨c, hold, rfl⟩ := Option.map_eq_some_iff.1 hc
    exact ⟨c, hold, rfl, rfl, (if_pos hid).symm⟩
  · next hid => exact ⟨c', hc, rfl, rfl, (if_neg hid).symm⟩

theorem exists_class?_withBase_iff {derived id : ClassId} {b : BaseSpecifier} :
    (∃ c, (h.withBase derived b).class? id = some c) ↔ ∃ c, h.class? id = some c := by
  rw [exists_class?_iff, exists_class?_iff, Hierarchy.withBase, modifyClass, List.length_modify]

/-- A new base is another declared class that is not a base yet. -/
theorem ClassTable.withBase (ht : h.ClassTable) {derived : ClassId} {b : BaseSpecifier}
    {d c : ClassDecl} (hd : h.class? derived = some d) (hb : h.class? b.base = some c)
    (hne : derived ≠ b.base) (hnew : ∀ s ∈ d.bases, s.base ≠ b.base) :
    (h.withBase derived b).ClassTable := by
  -- a base is one from before or the new one of the derived class
  have hback {id : ClassId} {c' : ClassDecl} (hc : (h.withBase derived b).class? id = some c')
      {s : BaseSpecifier} (hs : s ∈ c'.bases) :
      (∃ c, h.class? id = some c ∧ s ∈ c.bases) ∨ (id = derived ∧ s = b) := by
    obtain ⟨c, hc, -, -, hbases⟩ := exists_class?_of_withBase hc
    rw [hbases] at hs
    split at hs
    · next hid =>
      rcases List.mem_append.1 hs with hs | hs
      · exact Or.inl ⟨c, hc, hs⟩
      · exact Or.inr ⟨hid, List.mem_singleton.1 hs⟩
    · exact Or.inl ⟨c, hc, hs⟩
  refine ⟨?_, ?_, ?_, ?_, ?_⟩
  · intro id c' hc'
    obtain ⟨c, hc, hid, -⟩ := exists_class?_of_withBase hc'
    rw [hid, ht.class_id hc]
  · intro name id
    show h.names.lookup name = some id ↔ _
    rw [ht.lookup_name]
    constructor
    · rintro ⟨c, hc, rfl⟩
      obtain ⟨c', hc'⟩ := exists_class?_withBase_iff.2 ⟨c, hc⟩
      obtain ⟨c₀, hc₀, -, hname, -⟩ := exists_class?_of_withBase hc'
      rw [hc] at hc₀
      cases hc₀
      exact ⟨c', hc', hname⟩
    · rintro ⟨c', hc', rfl⟩
      obtain ⟨c, hc, -, hname, -⟩ := exists_class?_of_withBase hc'
      exact ⟨c, hc, hname.symm⟩
  · intro id c' hc' s hs
    rcases hback hc' hs with ⟨c₀, hc₀, hs⟩ | ⟨-, rfl⟩
    · exact exists_class?_withBase_iff.2 (ht.base_declared hc₀ s hs)
    · exact exists_class?_withBase_iff.2 ⟨c, hb⟩
  · intro id c' hc' s hs
    rcases hback hc' hs with ⟨c₀, hc₀, hs⟩ | ⟨rfl, rfl⟩
    · exact ht.base_ne hc₀ s hs
    · exact hne.symm
  · intro id c' hc'
    obtain ⟨c₀, hc₀, -, -, hbases⟩ := exists_class?_of_withBase hc'
    rw [hbases]
    split
    · next hid =>
      rw [hid, hd] at hc₀
      cases hc₀
      rw [List.map_append, List.nodup_append]
      refine ⟨ht.bases_nodup hd, List.pairwise_singleton _ _, ?_⟩
      intro x hx y hy hxy
      obtain ⟨s, hs, rfl⟩ := List.mem_map.1 hx
      rw [List.mem_singleton.1 hy] at hxy
      exact hnew s hs hxy
    · exact ht.bases_nodup hc₀

/-! ## Members -/

theorem MemberTable.empty : Hierarchy.empty.MemberTable where
  owned_members := .empty
  member_type hm := by cases hm

/-- As long as the members stay, only the lists of the classes matter. -/
theorem MemberTable.of_owned (ht : h.MemberTable) (hmembers : h'.members = h.members)
    (hlen : h.classes.length ≤ h'.classes.length)
    (howned : Owned memberSort (fun id => (h'.class? id).map (·.members)) h.member?) :
    h'.MemberTable := by
  have hmem (id : MemberId) : h'.member? id = h.member? id := by rw [member?, hmembers, member?]
  refine ⟨howned.congr (fun _ => rfl) hmem, fun hm => ?_⟩
  rw [hmem] at hm
  exact knowsType_mono hlen (ht.member_type hm)

theorem MemberTable.withMember (ht : h.MemberTable) {m : MemberDecl} {c : ClassDecl}
    (hid : m.id = ⟨h.members.length⟩) (hc : h.class? m.owner = some c)
    (htype : h.knowsType m.type = true)
    (hnew : ∀ n ∈ h.membersOf c, n.name ≠ m.name) : (h.withMember m).MemberTable := by
  have hlist : (h.class? m.owner).map (·.members) = some c.members := by rw [hc]; rfl
  refine ⟨ht.owned_members.add hlist ?_ hnew ?_ ?_, fun {id n} hn => ?_⟩
  · intro i n hn
    show i.index < m.id.index
    rw [hid]
    exact (List.getElem?_eq_some_iff.1 hn).1
  · show ∀ i, (h.withMember m).member? i = if i = m.id then some m else h.member? i
    rw [hid]
    exact h.member?_withMember m
  · intro j
    rw [class?_withMember]
    split
    · next hj =>
      rw [hj, hc]
      exact (if_pos rfl).symm
    · next hj => exact (if_neg hj).symm
  · have hlen : h.classes.length ≤ (h.withMember m).classes.length := by
      simp [Hierarchy.withMember, modifyClass]
    rw [member?_withMember] at hn
    split at hn
    · cases hn
      exact knowsType_mono hlen htype
    · exact knowsType_mono hlen (ht.member_type hn)

/-! ## Constructors -/

theorem ConstructorTable.empty : Hierarchy.empty.ConstructorTable where
  owned_constructors := .empty
  param_type hk := by cases hk
  defaults_trail hk := by cases hk

/-- As long as the constructors stay, only the lists of the classes matter. -/
theorem ConstructorTable.of_owned (ht : h.ConstructorTable)
    (hconstructors : h'.constructors = h.constructors)
    (hlen : h.classes.length ≤ h'.classes.length)
    (howned : Owned constructorSort (fun id => (h'.class? id).map (·.constructors))
      h.constructor?) : h'.ConstructorTable := by
  have hmem (id : ConstructorId) : h'.constructor? id = h.constructor? id := by
    rw [constructor?, hconstructors, constructor?]
  refine ⟨howned.congr (fun _ => rfl) hmem, fun hk p hp => ?_, fun hk => ?_⟩
  · rw [hmem] at hk
    exact knowsType_mono hlen (ht.param_type hk p hp)
  · rw [hmem] at hk
    exact ht.defaults_trail hk

theorem ConstructorTable.withConstructor (ht : h.ConstructorTable) {k : ConstructorDecl}
    {c : ClassDecl} (hid : k.id = ⟨h.constructors.length⟩) (hc : h.class? k.owner = some c)
    (htypes : ∀ p ∈ k.params, h.knowsType p.type = true) (htrail : defaultsTrail k.params = true)
    (hnew : ∀ l ∈ h.constructorsOf c, l.params.map (·.type) ≠ k.params.map (·.type)) :
    (h.withConstructor k).ConstructorTable := by
  have hlist : (h.class? k.owner).map (·.constructors) = some c.constructors := by rw [hc]; rfl
  refine ⟨ht.owned_constructors.add hlist ?_ hnew ?_ ?_, fun {id l} hl => ?_, fun {id l} hl => ?_⟩
  · intro i l hl
    show i.index < k.id.index
    rw [hid]
    exact (List.getElem?_eq_some_iff.1 hl).1
  · show ∀ i, (h.withConstructor k).constructor? i = if i = k.id then some k else h.constructor? i
    rw [hid]
    exact h.constructor?_withConstructor k
  · intro j
    rw [class?_withConstructor]
    split
    · next hj =>
      rw [hj, hc]
      exact (if_pos rfl).symm
    · next hj => exact (if_neg hj).symm
  · have hlen : h.classes.length ≤ (h.withConstructor k).classes.length := by
      simp [Hierarchy.withConstructor, modifyClass]
    rw [constructor?_withConstructor] at hl
    split at hl
    · cases hl
      exact fun p hp => knowsType_mono hlen (htypes p hp)
    · exact fun p hp => knowsType_mono hlen (ht.param_type hl p hp)
  · rw [constructor?_withConstructor] at hl
    split at hl
    · cases hl
      exact htrail
    · exact ht.defaults_trail hl

/-! ## All tables -/

theorem WellFormed.empty : Hierarchy.empty.WellFormed := ⟨.empty, .empty, .empty⟩

/-- **An accepted declaration keeps a hierarchy well-formed.** -/
theorem WellFormed.accepts {d : Declaration} {r : Declared} (hw : h.WellFormed)
    (ha : h.Accepts d r h') : h'.WellFormed := by
  have hmodify (g : Hierarchy) (id : ClassId) (f : ClassDecl → ClassDecl) :
      g.classes.length ≤ (g.modifyClass id f).classes.length := by simp [modifyClass]
  cases ha with
  | newClass hname =>
    have hlen (name : String) (span : Span) :
        h.classes.length ≤ (h.withClass name span).classes.length := by
      simp [Hierarchy.withClass]
    have hnew {β : Type} (π : ClassDecl → List β) :
        (h.class? ⟨h.classes.length⟩).map π = none := by
      rw [class?_eq_none_iff.2 (Nat.le_refl _), Option.map_none]
    exact ⟨hw.toClassTable.withClass _ hname,
      hw.toMemberTable.of_owned rfl (hlen _ _) <| hw.owned_members.newOwner (hnew _) <|
        map_class?_withClass h _ (fun _ _ _ => rfl) _ _,
      hw.toConstructorTable.of_owned rfl (hlen _ _) <| hw.owned_constructors.newOwner (hnew _) <|
        map_class?_withClass h _ (fun _ _ _ => rfl) _ _⟩
  | implicitDefaultPoint hc =>
    exact ⟨hw.toClassTable.congr rfl fun _ => map_class?_withPoint h _ (fun _ => rfl) _,
      hw.toMemberTable.of_owned rfl (hmodify h _ _) <| hw.owned_members.congr
        (fun _ => map_class?_withPoint h _ (fun _ => rfl) _) fun _ => rfl,
      hw.toConstructorTable.of_owned rfl (hmodify h _ _) <| hw.owned_constructors.congr
        (fun _ => map_class?_withPoint h _ (fun _ => rfl) _) fun _ => rfl⟩
  | base hd hb hne hnew =>
    exact ⟨hw.toClassTable.withBase hd hb hne hnew,
      hw.toMemberTable.of_owned rfl (hmodify h _ _) <| hw.owned_members.congr
        (fun _ => map_class?_withBase h _ (fun _ => rfl) _) fun _ => rfl,
      hw.toConstructorTable.of_owned rfl (hmodify h _ _) <| hw.owned_constructors.congr
        (fun _ => map_class?_withBase h _ (fun _ => rfl) _) fun _ => rfl⟩
  | member hc hnew htype =>
    exact ⟨hw.toClassTable.congr rfl fun _ => map_class?_withMember h _ (fun _ => rfl) _,
      hw.toMemberTable.withMember rfl hc htype hnew,
      hw.toConstructorTable.of_owned rfl (hmodify _ _ _) <| hw.owned_constructors.congr
        (fun _ => map_class?_withMember h _ (fun _ => rfl) _) fun _ => rfl⟩
  | constructor hc htypes htrail hnew =>
    exact ⟨hw.toClassTable.congr rfl fun _ => map_class?_withConstructor h _ (fun _ => rfl) _,
      hw.toMemberTable.of_owned rfl (hmodify _ _ _) <| hw.owned_members.congr
        (fun _ => map_class?_withConstructor h _ (fun _ => rfl) _) fun _ => rfl,
      hw.toConstructorTable.withConstructor rfl hc htypes htrail hnew⟩

theorem Reachable.wellFormed (hr : h.Reachable) : h.WellFormed :=
  hr.induction .empty fun _ hw ha => hw.accepts ha

end Hierarchy

end ConstructorCheck
