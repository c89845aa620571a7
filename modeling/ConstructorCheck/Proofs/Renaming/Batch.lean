import ConstructorCheck.Proofs.Check.Batch
import ConstructorCheck.Proofs.Check.Definition
import ConstructorCheck.Proofs.Renaming.Check
/-!
# Batches in renamed hierarchies

A batch finds the same under new ids, and in any order of its definitions and of their entries. The
findings may be sorted differently, because ids break ties.

* `checkDefinitions` — definitions in another order
* `checkImplicitDefaults` — default-constructed classes in another order
-/

namespace ConstructorCheck

/-- The same definition with its entries in another order. -/
def Definition.Reorders (d d' : Definition) : Prop :=
  ∃ es, d.entries.Perm es ∧ d' = { d with entries := es }

namespace Renaming.Renames

variable {ρ : Renaming} {h h' : Hierarchy} {o : Options} {xs : List Finding}

theorem findingsAt (hr : ρ.Renames h h') (sites : List Site) :
    h'.findingsAt (sites.map ρ.site) = (h.findingsAt sites).map ρ.finding := by
  rw [Hierarchy.findingsAt, Hierarchy.findingsAt, List.filterMap_map, List.map_filterMap]
  refine List.filterMap_congr fun s _ => ?_
  rw [Function.comp_apply, hr.checkSite]
  cases h.checkSite s <;> rfl

variable [ParallelMap]

/-- The same sites under new ids and in another order have the same findings. -/
theorem checkSites (hr : ρ.Renames h h') {sites sites' : List Site}
    (hp : (sites.map ρ.site).Perm sites') (hok : h.checkSites o sites = .ok xs) :
    ∃ xs', h'.checkSites o sites' = .ok xs' ∧ (xs.map ρ.finding).Perm xs' := by
  obtain ⟨hall, rfl⟩ := Hierarchy.checkSites_eq_ok_iff.1 hok
  have hall' : ∀ s' ∈ sites', ∃ v, h'.checkSite s' = .ok v := by
    intro s' hs'
    obtain ⟨s, hs, rfl⟩ := List.mem_map.1 (hp.mem_iff.2 hs')
    obtain ⟨v, hv⟩ := hall s hs
    exact ⟨v.map ρ.finding, by rw [hr.checkSite, hv]; rfl⟩
  refine ⟨_, Hierarchy.checkSites_eq_sort hall', ?_⟩
  refine ((Hierarchy.sort_perm _).map ρ.finding).trans ?_
  rw [← hr.findingsAt]
  exact (Hierarchy.findingsAt_perm hp).trans (Hierarchy.sort_perm _).symm

/-- A batch in which each part has the sites of a part of the other one. -/
theorem batch (hr : ρ.Renames h h') {α : Type} {sitesOf : α → Except CheckError (List Site)}
    {sitesOf' : α → Except CheckError (List Site)} {k : α → α}
    (hk : ∀ a, sitesOf' (k a) = relabel ρ.checkError (List.map ρ.site) (sitesOf a))
    {l l' : List α} (hp : (l.map k).Perm l')
    (hok : (l.mapM sitesOf >>= fun batches => h.checkSites o batches.flatten) = .ok xs) :
    ∃ batches, l'.mapM sitesOf' = .ok batches ∧
      ∃ xs', h'.checkSites o batches.flatten = .ok xs' ∧ (xs.map ρ.finding).Perm xs' := by
  obtain ⟨batches, hbatches, hok⟩ := bind_eq_ok_iff.1 hok
  have hrenamed : (l.map k).mapM sitesOf' = .ok (batches.map (List.map ρ.site)) := by
    rw [List.mapM_map]
    refine (relabel_mapM hk l).trans ?_
    rw [hbatches]
    rfl
  obtain ⟨batches', hbatches', hperm⟩ := mapM_perm hp hrenamed
  refine ⟨batches', hbatches', hr.checkSites ?_ hok⟩
  rw [List.map_flatten]
  exact hperm.flatten

/-- **Definitions in another order, with entries in another order, have the same findings.** -/
theorem checkDefinitions (hr : ρ.Renames h h') {ds ds₁ ds' : List Definition}
    (hp : (ds.map ρ.definition).Perm ds₁) (hds : List.Forall₂ Definition.Reorders ds₁ ds')
    (hok : h.checkDefinitions o ds = .ok xs) :
    ∃ xs', h'.checkDefinitions o ds' = .ok xs' ∧ (xs.map ρ.finding).Perm xs' := by
  obtain ⟨batches, hbatches, xs', hxs', hperm⟩ := hr.batch hr.sitesOf hp hok
  -- the order of the entries does not even change the order of the sites
  have hsites {d d' : Definition} {sites : List Site} (hd : d.Reorders d')
      (hok : h'.sitesOf d = .ok sites) : ∃ sites', h'.sitesOf d' = .ok sites' ∧ sites = sites' := by
    obtain ⟨es, hes, rfl⟩ := hd
    exact ⟨sites, Hierarchy.sitesOf_of_perm hes hok, rfl⟩
  obtain ⟨batches', hbatches', hsame⟩ := mapM_forall₂ hds hsites hbatches
  rw [List.forall₂_eq_eq_eq] at hsame
  subst hsame
  exact ⟨xs', bind_eq_ok_iff.2 ⟨batches, hbatches', hxs'⟩, hperm⟩

theorem checkImplicitDefaults (hr : ρ.Renames h h') {ids ids' : List ClassId}
    (hp : (ids.map ρ.ofClass).Perm ids') (hok : h.checkImplicitDefaults o ids = .ok xs) :
    ∃ xs', h'.checkImplicitDefaults o ids' = .ok xs' ∧ (xs.map ρ.finding).Perm xs' := by
  obtain ⟨batches, hbatches, xs', hxs', hperm⟩ := hr.batch hr.implicitSitesOf hp hok
  exact ⟨xs', bind_eq_ok_iff.2 ⟨batches, hbatches, hxs'⟩, hperm⟩

end Renaming.Renames

end ConstructorCheck
