import ConstructorCheck.Proofs.Renaming.Names
/-!
# The order of the classes of a fixture

Listing the classes of a fixture in another order gives the same hierarchy under other ids. All
bases are then added in another order too, and each of them is tested against other bases; none of
this makes a difference.

* `exists_renames_declared` — the declared classes are the same under new ids
* `exists_hierarchy_of_perm` — and so is the whole hierarchy
-/

namespace ConstructorCheck

/-! ## Blocks -/

/-- Entries that one block alone has are in the same order whatever the order of the blocks. -/
theorem filter_flatten_of_perm {α : Type} {l l' : List (List α)} {p : α → Bool} (hp : l.Perm l')
    (hone : l.Pairwise fun a b => a.filter p = [] ∨ b.filter p = []) :
    l.flatten.filter p = l'.flatten.filter p := by
  induction hp with
  | nil => rfl
  | cons a _ ih =>
    rw [List.flatten_cons, List.flatten_cons, List.filter_append, List.filter_append,
      ih (List.pairwise_cons.1 hone).2]
  | swap a b l =>
    have hab := (List.pairwise_cons.1 hone).1 a List.mem_cons_self
    simp only [List.flatten_cons, List.filter_append]
    rcases hab with hb | ha
    · rw [hb, List.nil_append, List.nil_append]
    · rw [ha, List.nil_append, List.nil_append]
  | trans hp₁ _ ih₁ ih₂ => exact (ih₁ hone).trans (ih₂ ((hp₁.pairwise_iff Or.symm).1 hone))

namespace Fixture

variable {f : SourceFile} {classes classes' : List ClassSpec} {g h : Hierarchy} {ρ : Renaming}

/-! ## Blocks of requests -/

/-- Blocks of different classes have no declarations for the same class. -/
theorem reordered_of_blocks {pairs : List (ClassSpec × ClassId)}
    {dss dss' : List (List Declaration)} (hnodup : (pairs.map (·.2)).Nodup)
    (hdss : pairs.mapM (fun p => p.1.requests f g p.2) = .ok dss)
    (hperm : (dss.map (List.map ρ.declaration)).Perm dss') :
    ρ.Reordered dss.flatten dss'.flatten := by
  refine ⟨by rw [List.map_flatten]; exact hperm.flatten, fun id => ?_⟩
  let ofClass (d : Declaration) : Bool := d.owner? = some (ρ.ofClass id)
  have hblocks : (dss.map (List.map ρ.declaration)).Pairwise fun a b =>
      a.filter ofClass = [] ∨ b.filter ofClass = [] := by
    have hother {j : ClassId} {c : ClassSpec} {ds : List Declaration}
        (hds : c.requests f g j = .ok ds) (hj : j ≠ id) :
        (ds.map ρ.declaration).filter ofClass = [] := by
      refine List.filter_eq_nil_iff.2 fun d hd => ?_
      obtain ⟨e, he, rfl⟩ := List.mem_map.1 hd
      rw [decide_eq_true_iff, Renaming.owner?_declaration_eq_some_iff,
        c.owner?_requests ds hds e he, Option.some.injEq]
      exact hj
    refine List.pairwise_map.2 (pairwise_of_mapM hdss (List.pairwise_map.1 hnodup) ?_)
    intro p ds p' ds' hds hds' hne
    by_cases hid : p.2 = id
    · exact Or.inr (hother hds' fun hid' => hne (hid.trans hid'.symm))
    · exact Or.inl (hother hds hid)
  rw [← filter_flatten_of_perm hperm hblocks, ← List.map_flatten, List.filter_map]
  refine congrArg (List.map ρ.declaration) (List.filter_congr fun d _ => ?_)
  exact decide_eq_decide.2 (Renaming.owner?_declaration_eq_some_iff d).symm

/-! ## The first round in another order -/

/-- **The declared classes are the same under new ids.** -/
theorem exists_renames_declared (hp : classes.Perm classes')
    (hd : ClassSpec.Declarable f .empty classes) (hd' : ClassSpec.Declarable f .empty classes') :
    ∃ ρ : Renaming, ρ.Renames (declared f classes) (declared f classes') ∧
      ((numbered classes).map (Prod.map id ρ.ofClass)).Perm (numbered classes') := by
  obtain ⟨p, hp⟩ := exists_equiv_of_perm hp
  let ρ : Renaming :=
    ⟨ClassId.number.trans (p.trans ClassId.number.symm), Equiv.refl _, Equiv.refl _⟩
  have hclass (id : ClassId) : (declared f classes').class? (ρ.ofClass id) =
      ((declared f classes).class? id).map ρ.classDecl := by
    rw [class?_declared, class?_declared, Option.map_map]
    exact congrArg (Option.map _) (hp id.index)
  refine ⟨ρ, ⟨hclass, fun id => ?_, fun id => ?_, ?_⟩, ?_⟩
  · rw [Hierarchy.member?, Hierarchy.member?, members_declared, members_declared]
    rfl
  · rw [Hierarchy.constructor?, Hierarchy.constructor?, constructors_declared,
      constructors_declared]
    rfl
  · exact Renaming.lookup_of_class? (wellFormed_declared hd) (wellFormed_declared hd') hclass
  · refine (List.perm_ext_iff_of_nodup ?_ (numbered_nodup classes')).2 fun p => ?_
    · exact (numbered_nodup classes).map (Function.injective_id.prodMap ρ.ofClass.injective)
    · obtain ⟨c, i'⟩ := p
      obtain ⟨i, rfl⟩ := ρ.ofClass.surjective i'
      have hmap : (c, ρ.ofClass i) ∈ (numbered classes).map (Prod.map id ρ.ofClass) ↔
          (c, i) ∈ numbered classes :=
        List.mem_map_of_injective (f := Prod.map id ρ.ofClass)
          (Function.injective_id.prodMap ρ.ofClass.injective) (a := (c, i))
      rw [hmap, mem_numbered_iff, mem_numbered_iff]
      exact iff_of_eq (congrArg (· = some c) (hp i.index).symm)

/-! ## Both rounds in another order -/

theorem bare_declared (f : SourceFile) (classes : List ClassSpec) : (declared f classes).Bare where
  members := members_declared f classes
  constructors := constructors_declared f classes
  bases := by
    intro id c hc
    rw [class?_declared, Option.map_eq_some_iff] at hc
    obtain ⟨spec, -, rfl⟩ := hc
    rfl

/-- **A fixture whose classes are listed in another order has the same hierarchy under new ids.** -/
theorem exists_hierarchy_of_perm (hp : classes.Perm classes') (hok : hierarchy f classes = .ok h) :
    ∃ h', hierarchy f classes' = .ok h' ∧ ∃ ρ : Renaming, ρ.Renames h h' := by
  obtain ⟨hd, ds, hds, hext⟩ := hierarchy_eq_ok_iff.1 hok
  have hd' : ClassSpec.Declarable f .empty classes' :=
    ⟨fun c hc => hd.spans c (hp.mem_iff.2 hc), fun c hc => hd.names_fresh c (hp.mem_iff.2 hc),
      (hp.map _).nodup_iff.1 hd.names_nodup⟩
  obtain ⟨ρ, hr, hnumbered⟩ := exists_renames_declared hp hd hd'
  obtain ⟨dss, hdss, rfl⟩ := map_eq_ok_iff.1 hds
  -- the renamed requests of all classes, and then the same in the other order
  have hrenamed : ((numbered classes).map (Prod.map id ρ.ofClass)).mapM
      (fun p => p.1.requests f (declared f classes') p.2) =
        .ok (dss.map (List.map ρ.declaration)) := by
    rw [List.mapM_map]
    refine (relabel_mapM (fun p : ClassSpec × ClassId => hr.classRequests p.2 p.1) _).trans ?_
    rw [hdss]
    rfl
  obtain ⟨dss', hdss', hperm⟩ := mapM_perm hnumbered hrenamed
  have hordered := reordered_of_blocks (numbered_ids_nodup classes) hdss hperm
  obtain ⟨h', hext', ρ', hr'⟩ := hordered.exists_extend hr (bare_declared f classes)
    (bare_declared f classes') (wellFormed_declared hd) (wellFormed_declared hd')
    ((Adds.foldlM ClassSpec.adds_fill (numbered classes)).content _ hds) hext
  exact ⟨h', hierarchy_eq_ok_iff.2 ⟨hd', _, map_eq_ok_iff.2 ⟨dss', hdss', rfl⟩, hext'⟩, ρ', hr'⟩

end Fixture

end ConstructorCheck
