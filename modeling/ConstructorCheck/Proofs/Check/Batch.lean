import ConstructorCheck.Check.Batch
import ConstructorCheck.Proofs.Results
/-!
# What a batch finds

A batch finds, in some order, what is found at each of its sites. Checking the sites at once makes
no difference to what is found, and neither does sorting. It makes a difference to the error of a
batch in which several sites fail.

* `findingsOf` — what is found at some sites, one after the other
* `checkSites_eq_ok_iff` — what a batch of sites reports
* `checkSites_eq_error_iff`, `exists_of_checkSites_eq_error` — the error of a batch whose sites are
  checked one after the other, and of any batch
* `exists_parallelMap_iff` — which errors a batch whose sites are checked at once can have
* `checkDefinitions_perm`, `checkImplicitDefaults_perm` — a batch finds what its definitions, or
  its classes, contribute
* `site_of_checkSite` — a finding stands where its site stands
-/

namespace ConstructorCheck

variable {h : Hierarchy} {o : Options} {s : Site} {sites : List Site} {x : Finding}
  {xs : List Finding}

namespace Hierarchy

/-! ## One site -/

/-- A finding belongs to the site that was checked, and is reported there. -/
theorem site_of_checkSite (hx : h.checkSite s = .ok (some x)) :
    x.site = s ∧ x.location = s.location := by
  obtain ⟨g, -, hx⟩ := bind_eq_ok_iff.1 hx
  cases g with
  | missingDefault target considered =>
    cases hx
    exact ⟨rfl, rfl⟩
  | candidates target cs =>
    simp only at hx
    split at hx
    · cases hx
      exact ⟨rfl, rfl⟩
    · cases hx
      exact ⟨rfl, rfl⟩
    · next winner _ =>
      have haccess : h.accessFinding s winner.candidate = some x := Except.ok.inj hx
      unfold accessFinding at haccess
      split at haccess
      · cases haccess
      · cases haccess
        exact ⟨rfl, rfl⟩

/-! ## Some sites -/

/-- What is found at some sites, in their order. -/
def findingsAt (h : Hierarchy) (sites : List Site) : List Finding :=
  sites.filterMap fun s => (h.checkSite s).toOption.join

theorem findingsAt_perm {sites' : List Site} (hp : sites.Perm sites') :
    (h.findingsAt sites).Perm (h.findingsAt sites') :=
  hp.filterMap _

/-- What is found at the sites of a definition, when it has sites. -/
def findingsOf (h : Hierarchy) (sites : Except CheckError (List Site)) : List Finding :=
  h.findingsAt (sites.toOption.getD [])

theorem mem_findingsOf_iff {r : Except CheckError (List Site)} :
    x ∈ h.findingsOf r ↔ ∃ sites, r = .ok sites ∧ ∃ s ∈ sites, h.checkSite s = .ok (some x) := by
  have hjoin (s : Site) :
      (h.checkSite s).toOption.join = some x ↔ h.checkSite s = .ok (some x) := by
    cases h.checkSite s <;> simp [Except.toOption]
  cases r with
  | error e =>
    show x ∈ [] ↔ _
    simp
  | ok sites =>
    show x ∈ sites.filterMap _ ↔ _
    simp only [List.mem_filterMap, hjoin, Except.ok.injEq, exists_eq_left']

theorem sort_perm (xs : List Finding) : (Finding.sort xs).Perm xs := List.mergeSort_perm xs _

theorem filterMap_outcomes {vs : List (Option Finding)}
    (hvs : List.Forall₂ (fun s v => h.checkSite s = .ok v) sites vs) :
    vs.filterMap id = h.findingsAt sites := by
  rw [findingsAt]
  induction hvs with
  | nil => rfl
  | cons hv _ ih =>
    rw [List.filterMap_cons, List.filterMap_cons, ih, hv]
    rfl

theorem findingsAt_flatten {α : Type} {f : α → Except CheckError (List Site)} {l : List α}
    {batches : List (List Site)} (hbatches : l.mapM f = .ok batches) :
    h.findingsAt batches.flatten = l.flatMap fun a => h.findingsOf (f a) := by
  rw [mapM_eq_ok_iff] at hbatches
  induction hbatches with
  | nil => rfl
  | cons hsites _ ih =>
    rw [List.flatMap_cons, ← ih, hsites, List.flatten_cons, findingsAt, List.filterMap_append]
    rfl

section Batches

variable [ParallelMap]

/-! ## A batch of sites -/

/-- The outcomes at all sites are the same, whether the sites are checked at once or not. -/
theorem outcomes_eq_ok_iff {vs : List (Option Finding)} :
    h.outcomes o sites = .ok vs ↔ sites.mapM h.checkSite = .ok vs := by
  unfold outcomes
  split
  · exact ParallelMap.mapM_eq_ok_iff
  · exact Iff.rfl

theorem outcomes_of_sequential (hseq : o.runsInParallel sites.length = false) :
    h.outcomes o sites = sites.mapM h.checkSite :=
  if_neg (Bool.not_eq_true _ ▸ hseq)

/-- **A batch that does not fail reports what is found at its sites, sorted.** -/
theorem checkSites_eq_ok_iff : h.checkSites o sites = .ok xs ↔
    (∀ s ∈ sites, ∃ v, h.checkSite s = .ok v) ∧ xs = Finding.sort (h.findingsAt sites) := by
  simp only [checkSites, map_eq_ok_iff, outcomes_eq_ok_iff]
  constructor
  · rintro ⟨vs, hvs, rfl⟩
    refine ⟨fun s hs => exists_ok_of_mapM hvs hs, ?_⟩
    rw [filterMap_outcomes (mapM_eq_ok_iff.1 hvs)]
  · rintro ⟨hall, rfl⟩
    obtain ⟨vs, hvs⟩ := exists_mapM_of_forall hall
    exact ⟨vs, hvs, by rw [filterMap_outcomes (mapM_eq_ok_iff.1 hvs)]⟩

theorem checkSites_eq_sort (hall : ∀ s ∈ sites, ∃ v, h.checkSite s = .ok v) :
    h.checkSites o sites = .ok (Finding.sort (h.findingsAt sites)) :=
  checkSites_eq_ok_iff.2 ⟨hall, rfl⟩

theorem checkSites_perm (hok : h.checkSites o sites = .ok xs) :
    xs.Perm (h.findingsAt sites) := by
  rw [(checkSites_eq_ok_iff.1 hok).2]
  exact sort_perm _

/-- **One site after the other, a batch fails with the error of its first site that does.** -/
theorem checkSites_eq_error_iff {e : CheckError} (hseq : o.runsInParallel sites.length = false) :
    h.checkSites o sites = .error e ↔ ∃ before s after, sites = before ++ s :: after ∧
      (∀ b ∈ before, ∃ v, h.checkSite b = .ok v) ∧ h.checkSite s = .error e := by
  rw [checkSites, outcomes_of_sequential hseq, map_eq_error_iff, mapM_eq_error_iff]

/-- **The error of a batch is that of one of its sites.** -/
theorem exists_of_checkSites_eq_error {e : CheckError} (he : h.checkSites o sites = .error e) :
    ∃ s ∈ sites, h.checkSite s = .error e := by
  rw [checkSites, map_eq_error_iff, outcomes] at he
  split at he
  · exact ParallelMap.exists_of_mapM_eq_error he
  · exact ParallelMap.exists_of_sequential_error he

/-- A batch fails when one of its sites does. -/
theorem exists_checkSites_eq_error_iff : (∃ e, h.checkSites o sites = .error e) ↔
    ∃ s ∈ sites, ∃ e, h.checkSite s = .error e := by
  simp only [exists_error_iff, checkSites_eq_ok_iff, exists_and_left, exists_eq, and_true,
    not_forall, exists_prop]

/-! ## A batch of definitions -/

/-- **A batch of definitions finds what each of them contributes.** -/
theorem checkDefinitions_perm {ds : List Definition} (hok : h.checkDefinitions o ds = .ok xs) :
    xs.Perm (ds.flatMap fun d => h.findingsOf (h.sitesOf d)) := by
  obtain ⟨batches, hbatches, hok⟩ := bind_eq_ok_iff.1 hok
  rw [← findingsAt_flatten hbatches]
  exact checkSites_perm hok

theorem checkImplicitDefaults_perm {ids : List ClassId}
    (hok : h.checkImplicitDefaults o ids = .ok xs) :
    xs.Perm (ids.flatMap fun id => h.findingsOf (h.implicitSitesOf id)) := by
  obtain ⟨batches, hbatches, hok⟩ := bind_eq_ok_iff.1 hok
  rw [← findingsAt_flatten hbatches]
  exact checkSites_perm hok

end Batches

/-! ## Several sites that fail -/

end Hierarchy

namespace ParallelMap

variable {α β ε : Type} {f : α → Except ε β} {l : List α} {i : Nat}

/-- The entry with some index, if there is one, and after it all entries. -/
def startingWith (i : Nat) (f : α → Except ε β) (l : List α) : Except ε (List β) :=
  match l[i]? with
  | none => l.mapM f
  | some a => f a >>= fun _ => l.mapM f

theorem startingWith_eq_ok_iff {bs : List β} : startingWith i f l = .ok bs ↔ l.mapM f = .ok bs := by
  unfold startingWith
  split
  · exact Iff.rfl
  · next a ha =>
    rw [bind_eq_ok_iff]
    refine ⟨fun ⟨_, _, hok⟩ => hok, fun hok => ?_⟩
    obtain ⟨b, hb⟩ := exists_ok_of_mapM hok (List.mem_of_getElem? ha)
    exact ⟨b, hb, hok⟩

theorem exists_of_startingWith_eq_error {e : ε} (he : startingWith i f l = .error e) :
    ∃ a ∈ l, f a = .error e := by
  unfold startingWith at he
  split at he
  · exact exists_of_sequential_error he
  · next a ha =>
    rcases bind_eq_error_iff.1 he with hfail | ⟨_, _, hrest⟩
    · exact ⟨a, List.mem_of_getElem? ha, hfail⟩
    · exact exists_of_sequential_error hrest

theorem startingWith_of_error {a : α} {e : ε} (ha : l[i]? = some a) (hfail : f a = .error e) :
    startingWith i f l = .error e := by
  rw [startingWith, ha]
  exact bind_eq_error_iff.2 (Or.inl hfail)

/-- Looks at the entry with some index before the others. -/
@[reducible] def lookingAt (i : Nat) : ParallelMap where
  mapM := startingWith i
  mapM_eq_ok_iff := startingWith_eq_ok_iff
  exists_of_mapM_eq_error := exists_of_startingWith_eq_error

end ParallelMap

namespace Hierarchy

/--
**Each site that fails can be the one whose error a batch has**, if the sites are checked at once.
-/
theorem exists_parallelMap_iff {e : CheckError} (hpar : o.runsInParallel sites.length = true) :
    (∃ _ : ParallelMap, h.checkSites o sites = .error e) ↔
      ∃ s ∈ sites, h.checkSite s = .error e := by
  constructor
  · rintro ⟨_, he⟩
    exact exists_of_checkSites_eq_error he
  · rintro ⟨s, hs, hfail⟩
    obtain ⟨i, hi⟩ := List.mem_iff_getElem?.1 hs
    refine ⟨.lookingAt i, map_eq_error_iff.2 ?_⟩
    unfold outcomes
    rw [if_pos hpar]
    exact ParallelMap.startingWith_of_error hi hfail

end Hierarchy

end ConstructorCheck
