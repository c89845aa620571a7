import ConstructorCheck.Check.Definition
import ConstructorCheck.Proofs.Hierarchy.Accepted
import Mathlib.Data.List.Nodup
/-!
# The sites of a definition and its entries

A site stands at the entry of its subject, and at the implicit point of the definition when there
is no entry. Entries are looked up by subject, and no two entries of a definition have the same
subject.

* `sitesOf_eq_map` — the sites of a definition, in terms of the entry of each subject
* `lookup_assignEntries` — looking up a subject finds the entry that names it
* `subjects_nodup` — the entries of an accepted list have different subjects
* `location_of_mem_sitesOf`, `location_of_mem_implicitSitesOf` — the locations of the sites
* `sitesOf_of_perm` — with its entries in another order a definition has the same sites
-/

namespace ConstructorCheck.Hierarchy

variable {h : Hierarchy} {c : ClassDecl} {owner : ClassId} {d : Definition} {sites : List Site}
  {s : Site}

/-! ## Sites and subjects -/

@[simp] theorem context_siteOf (point : Span) (assigned : List (Subject × Entry)) (su : Subject) :
    (siteOf owner point assigned su).context = owner := by
  unfold siteOf
  split <;> rfl

@[simp] theorem subject_siteOf (point : Span) (assigned : List (Subject × Entry)) (su : Subject) :
    (siteOf owner point assigned su).subject = su := by
  unfold siteOf
  split <;> rfl

/-- What a definition constructs, in order. -/
def constructed (h : Hierarchy) (c : ClassDecl) (assigned : List (Subject × Entry)) :
    List Subject :=
  c.bases.map (fun b => .base b.base) ++
    ((h.membersOf c).filter (constructsMember assigned)).map fun m => .member m.id

/-- **The sites of a definition, in terms of the entry of each subject.** -/
theorem sitesOf_eq_map (hc : h.class? d.owner = some c) :
    h.sitesOf d = (h.assignEntries c d.owner [] d.entries).map fun assigned =>
      (h.constructed c assigned).map (siteOf d.owner d.implicitPoint assigned) := by
  rw [sitesOf, getClass_eq_ok_iff.2 hc]
  show (h.assignEntries c d.owner [] d.entries >>= _) = _
  cases h.assignEntries c d.owner [] d.entries <;> rfl

theorem sitesOf_eq_ok_iff : h.sitesOf d = .ok sites ↔ ∃ c assigned,
    h.class? d.owner = some c ∧ h.assignEntries c d.owner [] d.entries = .ok assigned ∧
      sites = (h.constructed c assigned).map (siteOf d.owner d.implicitPoint assigned) := by
  constructor
  · intro hok
    obtain ⟨c, hc, -⟩ := bind_eq_ok_iff.1 hok
    have hc := getClass_eq_ok_iff.1 (mapError_eq_ok_iff.1 hc)
    rw [sitesOf_eq_map hc] at hok
    obtain ⟨assigned, hassigned, rfl⟩ := map_eq_ok_iff.1 hok
    exact ⟨c, assigned, hc, hassigned, rfl⟩
  · rintro ⟨c, assigned, hc, hassigned, rfl⟩
    rw [sitesOf_eq_map hc]
    exact map_eq_ok_iff.2 ⟨assigned, hassigned, rfl⟩

/-! ## Entries and subjects -/

/-- The subject of each entry of an accepted list is known and is not one of the earlier ones. -/
theorem assignEntries_cons_eq_ok_iff {earlier assigned : List (Subject × Entry)} {e : Entry}
    {es : List Entry} :
    h.assignEntries c owner earlier (e :: es) = .ok assigned ↔
      ∃ su, h.subjectOf? owner e.name = some su ∧ (∀ p ∈ earlier, p.1 ≠ su) ∧
        h.assignEntries c owner (earlier ++ [(su, e)]) es = .ok assigned := by
  rw [assignEntries]
  cases h.subjectOf? owner e.name with
  | none => simp
  | some su =>
    by_cases hany : (earlier.any fun p => p.1 = su) = true
    · have hno : ¬ ∀ p ∈ earlier, p.1 ≠ su := by simpa using hany
      simp only [hany, if_true, reduceCtorEq, Option.some.injEq, false_iff]
      rintro ⟨_, rfl, hall, -⟩
      exact hno hall
    · have hall : ∀ p ∈ earlier, p.1 ≠ su := fun p hp heq =>
        hany (List.any_eq_true.2 ⟨p, hp, decide_eq_true heq⟩)
      simp only [hany, if_false, Bool.false_eq_true, Option.some.injEq]
      exact ⟨fun hok => ⟨su, rfl, hall, hok⟩, fun ⟨_, rfl, _, hok⟩ => hok⟩

theorem lookup_assignEntries {earlier assigned : List (Subject × Entry)} {es : List Entry}
    (hok : h.assignEntries c owner earlier es = .ok assigned) (su : Subject) :
    assigned.lookup su =
      (earlier.lookup su).or (es.find? fun e => h.subjectOf? owner e.name = some su) := by
  -- on the entries that are left, while `earlier` grows
  induction es generalizing earlier with
  | nil =>
    cases hok
    rw [List.find?_nil, Option.or_none]
  | cons e es ih =>
    obtain ⟨su', hsu', -, hok⟩ := assignEntries_cons_eq_ok_iff.1 hok
    rw [ih hok, List.lookup_append, Option.or_assoc, List.find?_cons, hsu', List.lookup_cons]
    by_cases heq : su' = su
    · simp [heq]
    · simp [heq, beq_false_of_ne (Ne.symm heq)]

/-- **Looking up a subject finds the entry that names it.** -/
theorem lookup_assigned {assigned : List (Subject × Entry)} {es : List Entry}
    (hok : h.assignEntries c owner [] es = .ok assigned) (su : Subject) :
    assigned.lookup su = es.find? fun e => h.subjectOf? owner e.name = some su := by
  rw [lookup_assignEntries hok, List.lookup_nil, Option.none_or]

/-! ## Locations -/

/-- **A site stands at the entry of its subject, or else at the implicit point.** -/
theorem location_of_mem_sitesOf (hok : h.sitesOf d = .ok sites) (hs : s ∈ sites) :
    s.location = ((d.entries.find? fun e =>
      h.subjectOf? d.owner e.name = some s.subject).map (·.span)).getD d.implicitPoint := by
  obtain ⟨c, assigned, -, hassigned, rfl⟩ := sitesOf_eq_ok_iff.1 hok
  obtain ⟨su, -, rfl⟩ := List.mem_map.1 hs
  rw [subject_siteOf, ← lookup_assigned hassigned su, siteOf]
  cases assigned.lookup su with
  | none => rfl
  | some e => rfl

theorem location_of_mem_implicitSitesOf (hok : h.implicitSitesOf owner = .ok sites)
    (hs : s ∈ sites) : ∃ c, h.class? owner = some c ∧ s.location = c.implicitDefaultPoint := by
  obtain ⟨c, hc, hok⟩ := bind_eq_ok_iff.1 hok
  rw [mapError_eq_ok_iff, getClass_eq_ok_iff] at hc
  split at hok
  · exact ⟨c, hc, location_of_mem_sitesOf hok hs⟩
  · cases hok

/-! ## The order of the entries -/

/-- A search by a key that no two entries share does not depend on the order of the entries. -/
theorem find?_of_perm {α κ : Type} [DecidableEq κ] {g : α → κ} {l l' : List α} (hp : l.Perm l')
    (hnodup : (l.map g).Nodup) (k : κ) :
    (l.find? fun a => g a = k) = l'.find? fun a => g a = k := by
  induction hp with
  | nil => rfl
  | cons a _ ih => rw [List.find?_cons, List.find?_cons, ih (List.nodup_cons.1 hnodup).2]
  | swap a b l =>
    have hne : g b ≠ g a := fun heq =>
      (List.nodup_cons.1 hnodup).1 (heq ▸ List.mem_cons_self)
    simp only [List.find?_cons]
    by_cases ha : g a = k
    · have hb : g b ≠ k := fun hb => hne (hb.trans ha.symm)
      simp [ha, hb]
    · simp [ha]
  | trans hp₁ _ ih₁ ih₂ => exact (ih₁ hnodup).trans (ih₂ ((hp₁.map g).nodup_iff.1 hnodup))

/-- When the subjects of some entries can be found. -/
theorem exists_assignEntries_iff {earlier : List (Subject × Entry)} {es : List Entry} :
    (∃ assigned, h.assignEntries c owner earlier es = .ok assigned) ↔
      (∀ e ∈ es, ∃ su, h.subjectOf? owner e.name = some su ∧ ∀ p ∈ earlier, p.1 ≠ su) ∧
        (es.map fun e => h.subjectOf? owner e.name).Nodup := by
  induction es generalizing earlier with
  | nil => exact iff_of_true ⟨earlier, rfl⟩ ⟨fun _ he => absurd he List.not_mem_nil, .nil⟩
  | cons e es ih =>
    simp only [assignEntries_cons_eq_ok_iff, List.forall_mem_cons, List.map_cons, List.nodup_cons,
      List.mem_map]
    constructor
    · rintro ⟨assigned, su, hsu, hnew, hok⟩
      obtain ⟨hknown, hnodup⟩ := ih.1 ⟨assigned, hok⟩
      refine ⟨⟨⟨su, hsu, hnew⟩, fun e' he' => ?_⟩, ?_, hnodup⟩
      · obtain ⟨su', hsu', hall⟩ := hknown e' he'
        exact ⟨su', hsu', fun p hp => hall p (List.mem_append_left _ hp)⟩
      · rintro ⟨e', he', heq⟩
        obtain ⟨su', hsu', hall⟩ := hknown e' he'
        rw [hsu', hsu, Option.some.injEq] at heq
        exact hall (su, e) (List.mem_append_right _ (List.mem_singleton.2 rfl)) heq.symm
    · rintro ⟨⟨⟨su, hsu, hnew⟩, hknown⟩, hother, hnodup⟩
      have hrest : ∀ e' ∈ es, ∃ su', h.subjectOf? owner e'.name = some su' ∧
          ∀ p ∈ earlier ++ [(su, e)], p.1 ≠ su' := by
        intro e' he'
        obtain ⟨su', hsu', hall⟩ := hknown e' he'
        refine ⟨su', hsu', fun p hp => ?_⟩
        rcases List.mem_append.1 hp with hp | hp
        · exact hall p hp
        · rw [List.mem_singleton.1 hp]
          rintro rfl
          exact hother ⟨e', he', hsu'.trans hsu.symm⟩
      obtain ⟨assigned, hok⟩ := ih.2 ⟨hrest, hnodup⟩
      exact ⟨assigned, su, hsu, hnew, hok⟩

/-- The entries of an accepted definition have different subjects. -/
theorem subjects_nodup (hok : h.sitesOf d = .ok sites) :
    (d.entries.map fun e => h.subjectOf? d.owner e.name).Nodup := by
  obtain ⟨c, assigned, -, hassigned, -⟩ := sitesOf_eq_ok_iff.1 hok
  exact (exists_assignEntries_iff.1 ⟨assigned, hassigned⟩).2

theorem lookup_of_perm {assigned : List (Subject × Entry)} {es es' : List Entry}
    (hp : es.Perm es') (hok : h.assignEntries c owner [] es = .ok assigned) :
    ∃ assigned', h.assignEntries c owner [] es' = .ok assigned' ∧
      ∀ su, assigned'.lookup su = assigned.lookup su := by
  obtain ⟨hknown, hnodup⟩ := exists_assignEntries_iff.1 ⟨assigned, hok⟩
  obtain ⟨assigned', hok'⟩ := exists_assignEntries_iff.2
    ⟨fun e he => hknown e (hp.mem_iff.2 he), (hp.map _).nodup_iff.1 hnodup⟩
  refine ⟨assigned', hok', fun su => ?_⟩
  rw [lookup_assigned hok', lookup_assigned hok]
  exact (find?_of_perm hp hnodup (some su)).symm

/-- **With its entries in another order a definition has the same sites, in the same order.** -/
theorem sitesOf_of_perm {es : List Entry} (hp : d.entries.Perm es) (hok : h.sitesOf d = .ok sites) :
    h.sitesOf { d with entries := es } = .ok sites := by
  obtain ⟨c, assigned, hc, hassigned, rfl⟩ := sitesOf_eq_ok_iff.1 hok
  obtain ⟨assigned', hassigned', hlookup⟩ := lookup_of_perm hp hassigned
  refine sitesOf_eq_ok_iff.2 ⟨c, assigned', hc, hassigned', ?_⟩
  -- sites only look entries up
  have hsite : siteOf d.owner d.implicitPoint assigned' = siteOf d.owner d.implicitPoint assigned :=
    funext fun su => by rw [siteOf, siteOf, hlookup]
  have hconstructs : constructsMember assigned' = constructsMember assigned :=
    funext fun m => by rw [constructsMember, constructsMember, hlookup]
  rw [constructed, constructed, ← hconstructs, ← hsite]
  rfl

end ConstructorCheck.Hierarchy
