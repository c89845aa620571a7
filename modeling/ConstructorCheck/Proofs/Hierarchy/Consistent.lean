import ConstructorCheck.Proofs.Hierarchy.WellFormed
/-!
# Consistent tables

What a reader of a reachable hierarchy may rely on, said of the tables as they stand: positions are
ids, names lead to their classes, owners and their records agree, and what the declarations refuse
does not occur.

* `ListedOnce` — each record stands once, in the list of its owner
* `Consistent` — all that holds of the tables
* `Reachable.consistent` — it holds of every hierarchy that declarations build
-/

namespace ConstructorCheck

/-! ## Records in the lists of their owners -/

section Listed

variable {ι ρ κ : Type} [DecidableEq ι]

/-- Each record stands once, in the list of its owner, and in no other list. -/
structure ListedOnce (σ : RecordSort ι ρ κ) (lists : ClassId → Option (List ι))
    (records : ι → Option ρ) : Prop where
  owner_lists : ∀ i r, records i = some r → ∃ l, lists (σ.owner r) = some l ∧ l.count i = 1
  only_owner_lists : ∀ i r c l, records i = some r → lists c = some l → i ∈ l → c = σ.owner r
  /-- The lists are in the order of declaration. -/
  ascending : ∀ c l, lists c = some l → (l.map σ.index).Pairwise (· < ·)
  /-- All that is listed is recorded. -/
  nothing_dropped : ∀ c l, lists c = some l → (l.filterMap records).map σ.id = l
  keys_nodup : ∀ c l, lists c = some l → ((l.filterMap records).map σ.key).Nodup

theorem Owned.listedOnce {σ : RecordSort ι ρ κ} {lists : ClassId → Option (List ι)}
    {records : ι → Option ρ} (h : Owned σ lists records) : ListedOnce σ lists records where
  owner_lists := by
    intro i r hr
    obtain ⟨l, hl⟩ := h.owner_listed hr
    exact ⟨l, hl, List.count_eq_one_of_mem (h.list_nodup hl) ((h.mem_iff hl i).2 ⟨r, hr, rfl⟩)⟩
  only_owner_lists := by
    intro i r c l hr hl hi
    obtain ⟨s, hs, rfl⟩ := (h.mem_iff hl i).1 hi
    rw [hr] at hs
    cases hs
    rfl
  ascending _ _ hl := List.pairwise_map.2 (h.sorted hl)
  nothing_dropped _ _ := h.map_id_filterMap
  keys_nodup _ _ := h.keys_nodup

end Listed

/-! ## Defaults -/

/-- The defaults trail when no parameter without one follows a parameter with one. -/
theorem defaultsTrail_iff {ps : List Param} :
    defaultsTrail ps = true ↔ ps.Pairwise fun p q => p.defaulted = true → q.defaulted = true := by
  induction ps with
  | nil => simp [defaultsTrail]
  | cons p ps ih =>
    rw [List.pairwise_cons]
    cases hp : p.defaulted with
    | true =>
      -- from here on all parameters have a default
      have hall : defaultsTrail (p :: ps) = true ↔ ∀ q ∈ ps, q.defaulted = true := by
        simp [defaultsTrail, hp]
      rw [hall]
      constructor
      · intro hq
        exact ⟨fun q hmem _ => hq q hmem,
          List.pairwise_of_forall_mem_list fun _ _ q hmem _ => hq q hmem⟩
      · exact fun hq q hmem => hq.1 q hmem rfl
    | false =>
      have hrest : defaultsTrail (p :: ps) = defaultsTrail ps := by
        simp [defaultsTrail, hp]
      rw [hrest, ih]
      simp

/-! ## The tables -/

namespace Hierarchy

variable {h : Hierarchy}

/-- What holds of the tables of a hierarchy that declarations build. -/
structure Consistent (h : Hierarchy) : Prop where
  class_id : ∀ (i : Nat) c, h.classes[i]? = some c → c.id = ⟨i⟩
  member_id : ∀ (i : Nat) m, h.members[i]? = some m → m.id = ⟨i⟩
  constructor_id : ∀ (i : Nat) k, h.constructors[i]? = some k → k.id = ⟨i⟩
  class_names_nodup : (h.classes.map (·.name)).Nodup
  classByName_iff : ∀ name id,
    h.classByName name = .ok id ↔ ∃ c ∈ h.classes, c.id = id ∧ c.name = name
  members_listed : ListedOnce memberSort (fun id => (h.class? id).map (·.members)) h.member?
  constructors_listed :
    ListedOnce constructorSort (fun id => (h.class? id).map (·.constructors)) h.constructor?
  ownMembers_all : ∀ c ∈ h.classes, ∃ ms, h.ownMembers c.id = .ok ms ∧ ms.map (·.id) = c.members
  ownConstructors_all : ∀ c ∈ h.classes,
    ∃ ks, h.ownConstructors c.id = .ok ks ∧ ks.map (·.id) = c.constructors
  member_names_nodup : ∀ c ∈ h.classes, ((h.membersOf c).map (·.name)).Nodup
  base_declared : ∀ c ∈ h.classes, ∀ s ∈ c.bases, ∃ b ∈ h.classes, b.id = s.base
  member_type_declared : ∀ m ∈ h.members, ∀ id, m.type = .ofClass id → ∃ c ∈ h.classes, c.id = id
  param_type_declared : ∀ k ∈ h.constructors, ∀ p ∈ k.params, ∀ id, p.type = .ofClass id →
    ∃ c ∈ h.classes, c.id = id
  bases_nodup : ∀ c ∈ h.classes, (c.bases.map (·.base)).Nodup
  base_ne : ∀ c ∈ h.classes, ∀ s ∈ c.bases, s.base ≠ c.id
  /-- Access and defaults do not count. -/
  signatures_nodup : ∀ c ∈ h.classes,
    ((h.constructorsOf c).map fun k => k.params.map (·.type)).Nodup
  defaults_last : ∀ k ∈ h.constructors,
    k.params.Pairwise fun p q => p.defaulted = true → q.defaulted = true

/-- A class record is found by its id. -/
theorem WellFormed.mem_classes_iff (hw : h.WellFormed) {c : ClassDecl} :
    c ∈ h.classes ↔ h.class? c.id = some c := by
  rw [List.mem_iff_getElem?]
  constructor
  · rintro ⟨i, hi⟩
    have hc : h.class? ⟨i⟩ = some c := hi
    rw [hw.class_id hc]
    exact hi
  · exact fun hc => ⟨_, hc⟩

theorem WellFormed.exists_mem_classes_iff (hw : h.WellFormed) {id : ClassId} :
    (∃ c ∈ h.classes, c.id = id) ↔ ∃ c, h.class? id = some c := by
  constructor
  · rintro ⟨c, hc, rfl⟩
    exact ⟨c, hw.mem_classes_iff.1 hc⟩
  · rintro ⟨c, hc⟩
    exact ⟨c, List.mem_of_getElem? hc, hw.class_id hc⟩

/-- The name index tells classes apart by their names, so no two classes share one. -/
theorem WellFormed.class_names_nodup (hw : h.WellFormed) : (h.classes.map (·.name)).Nodup := by
  refine List.Nodup.map_on (fun c hc d hd hname => ?_) ?_
  · rw [hw.mem_classes_iff] at hc hd
    have hid := (hw.lookup_name.2 ⟨c, hc, hname⟩).symm.trans (hw.lookup_name.2 ⟨d, hd, rfl⟩)
    rw [Option.some.inj hid, hd] at hc
    exact (Option.some.inj hc).symm
  · -- a record stands at the position that it names
    refine List.nodup_iff_getElem?_ne_getElem?.2 fun i j hij hj heq => ?_
    rw [List.getElem?_eq_getElem hj] at heq
    have hclassi : h.class? ⟨i⟩ = some h.classes[j] := heq
    have hclassj : h.class? ⟨j⟩ = some h.classes[j] := List.getElem?_eq_getElem hj
    cases (hw.class_id hclassi).symm.trans (hw.class_id hclassj)
    exact Nat.lt_irrefl _ hij

theorem WellFormed.classByName_iff (hw : h.WellFormed) {name : String} {id : ClassId} :
    h.classByName name = .ok id ↔ ∃ c ∈ h.classes, c.id = id ∧ c.name = name := by
  rw [classByName_eq_ok_iff, hw.lookup_name]
  constructor
  · rintro ⟨c, hc, hname⟩
    exact ⟨c, List.mem_of_getElem? hc, hw.class_id hc, hname⟩
  · rintro ⟨c, hc, rfl, hname⟩
    exact ⟨c, hw.mem_classes_iff.1 hc, hname⟩

theorem WellFormed.exists_of_knowsType (hw : h.WellFormed) {t : TypeRef} {id : ClassId}
    (ht : h.knowsType t = true) (heq : t = .ofClass id) : ∃ c ∈ h.classes, c.id = id := by
  rw [heq, knowsType_ofClass_iff] at ht
  exact hw.exists_mem_classes_iff.2 ht

theorem ownMembers_eq_ok {id : ClassId} {c : ClassDecl} (hc : h.class? id = some c) :
    h.ownMembers id = .ok (h.membersOf c) := by
  rw [ownMembers, getClass_eq_ok_iff.2 hc]
  rfl

theorem ownConstructors_eq_ok {id : ClassId} {c : ClassDecl} (hc : h.class? id = some c) :
    h.ownConstructors id = .ok (h.constructorsOf c) := by
  rw [ownConstructors, getClass_eq_ok_iff.2 hc]
  rfl

/--
**The tables of a reachable hierarchy are consistent.** Positions are ids, names lead to classes,
each member and constructor is listed once by its owner, and types, bases, signatures and defaults
are as the declarations demand.
-/
theorem Reachable.consistent (hr : h.Reachable) : h.Consistent := by
  have hw := hr.wellFormed
  have hclass {c : ClassDecl} (hc : c ∈ h.classes) : h.class? c.id = some c :=
    hw.mem_classes_iff.1 hc
  have hmembers {c : ClassDecl} (hc : c ∈ h.classes) :
      (h.class? c.id).map (·.members) = some c.members := by rw [hclass hc]; rfl
  have hconstructors {c : ClassDecl} (hc : c ∈ h.classes) :
      (h.class? c.id).map (·.constructors) = some c.constructors := by rw [hclass hc]; rfl
  -- a position holds the record with the id of that position
  have hclassAt (i : Nat) (c : ClassDecl) (hc : h.class? ⟨i⟩ = some c) : c.id = ⟨i⟩ :=
    hw.class_id hc
  have hmemberAt {i : Nat} {m : MemberDecl} (hm : h.members[i]? = some m) :
      h.member? ⟨i⟩ = some m := hm
  have hconstructorAt {i : Nat} {k : ConstructorDecl} (hk : h.constructors[i]? = some k) :
      h.constructor? ⟨i⟩ = some k := hk
  exact {
    class_id := hclassAt
    member_id := fun _ _ hm => hw.owned_members.id_eq (hmemberAt hm)
    constructor_id := fun _ _ hk => hw.owned_constructors.id_eq (hconstructorAt hk)
    class_names_nodup := hw.class_names_nodup
    classByName_iff := fun _ _ => hw.classByName_iff
    members_listed := hw.owned_members.listedOnce
    constructors_listed := hw.owned_constructors.listedOnce
    ownMembers_all := fun c hc =>
      ⟨_, ownMembers_eq_ok (hclass hc), hw.owned_members.map_id_filterMap (hmembers hc)⟩
    ownConstructors_all := fun c hc =>
      ⟨_, ownConstructors_eq_ok (hclass hc),
        hw.owned_constructors.map_id_filterMap (hconstructors hc)⟩
    member_names_nodup := fun c hc => hw.owned_members.keys_nodup (hmembers hc)
    base_declared := fun c hc s hs =>
      hw.exists_mem_classes_iff.2 (hw.base_declared (hclass hc) s hs)
    member_type_declared := fun m hm id => by
      obtain ⟨i, hi⟩ := List.mem_iff_getElem?.1 hm
      exact hw.exists_of_knowsType (hw.member_type (hmemberAt hi))
    param_type_declared := fun k hk p hp id => by
      obtain ⟨i, hi⟩ := List.mem_iff_getElem?.1 hk
      exact hw.exists_of_knowsType (hw.param_type (hconstructorAt hi) p hp)
    bases_nodup := fun c hc => hw.bases_nodup (hclass hc)
    base_ne := fun c hc => hw.base_ne (hclass hc)
    signatures_nodup := fun c hc => hw.owned_constructors.keys_nodup (hconstructors hc)
    defaults_last := fun k hk => by
      obtain ⟨i, hi⟩ := List.mem_iff_getElem?.1 hk
      exact defaultsTrail_iff.1 (hw.defaults_trail (hconstructorAt hi)) }

/-- Two classes, one with a base, a member and a defaulted parameter of the other's type. -/
theorem Reachable.consistent_two_classes :
    let h := Hierarchy.empty.run [.newClass "Part" .unknown, .newClass "Whole" .unknown,
      .base ⟨1⟩ ⟨0⟩ .publicAccess .unknown,
      .member ⟨1⟩ "part" (.ofClass ⟨0⟩) .privateAccess none .unknown,
      .member ⟨1⟩ "part" (.primitive .int) .publicAccess none .unknown,
      .constructor ⟨1⟩ [⟨.primitive .int, false⟩, ⟨.ofClass ⟨0⟩, true⟩] .publicAccess .unknown]
    h.Reachable ∧ h.Consistent := by
  intro h
  have hr : h.Reachable := ⟨_, rfl⟩
  exact ⟨hr, Reachable.consistent hr⟩

end Hierarchy

end ConstructorCheck
