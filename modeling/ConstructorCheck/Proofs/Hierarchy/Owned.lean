import ConstructorCheck.Hierarchy.Basic
import Mathlib.Data.List.Sort
import Mathlib.Logic.Equiv.Defs
/-!
# Records and their owners

Members and constructors are both records that know their owner, while the owner lists their ids.
`Owned` says how the two fit together, for any sort of records and with the lists and the records
given as functions.

* `Owned.mem_filterMap_iff` — looking up what an owner lists gives all its records
* `Owned.map_id_filterMap`, `Owned.keys_nodup` — nothing is dropped, and no key occurs twice
* `Owned.newOwner`, `Owned.add` — the two ways in which lists and records change
-/

namespace ConstructorCheck

/-- A sort of records that name their owner, a class. -/
structure RecordSort (ι ρ κ : Type) where
  index : ι → Nat
  id : ρ → ι
  owner : ρ → ClassId
  /-- What tells the records of one owner apart. -/
  key : ρ → κ

/-- The members of a class differ by name. -/
def memberSort : RecordSort MemberId MemberDecl String :=
  ⟨MemberId.index, MemberDecl.id, MemberDecl.owner, MemberDecl.name⟩

/-- The constructors of a class differ by the types of their parameters. -/
def constructorSort : RecordSort ConstructorId ConstructorDecl (List TypeRef) :=
  ⟨ConstructorId.index, ConstructorDecl.id, ConstructorDecl.owner, fun k => k.params.map (·.type)⟩

def ClassId.number : ClassId ≃ Nat :=
  ⟨ClassId.index, ClassId.mk, fun _ => rfl, fun _ => rfl⟩

def MemberId.number : MemberId ≃ Nat :=
  ⟨MemberId.index, MemberId.mk, fun _ => rfl, fun _ => rfl⟩

def ConstructorId.number : ConstructorId ≃ Nat :=
  ⟨ConstructorId.index, ConstructorId.mk, fun _ => rfl, fun _ => rfl⟩

variable {ι ρ κ : Type}

/-- What tells a record apart from all others of its sort. -/
def RecordSort.tag (σ : RecordSort ι ρ κ) (r : ρ) : ClassId × κ := (σ.owner r, σ.key r)

/-- Records carry their ids, and each owner lists the ids of its records in ascending order. -/
structure Owned (σ : RecordSort ι ρ κ) (lists : ClassId → Option (List ι))
    (records : ι → Option ρ) : Prop where
  id_eq : ∀ {i r}, records i = some r → σ.id r = i
  mem_iff : ∀ {c l}, lists c = some l → ∀ i, i ∈ l ↔ ∃ r, records i = some r ∧ σ.owner r = c
  sorted : ∀ {c l}, lists c = some l → l.Pairwise fun i j => σ.index i < σ.index j
  owner_listed : ∀ {i r}, records i = some r → ∃ l, lists (σ.owner r) = some l
  key_inj : ∀ {i j r s}, records i = some r → records j = some s →
    σ.owner r = σ.owner s → σ.key r = σ.key s → i = j

/-- The records stand in a table, each at the position that its id numbers. -/
structure InTable (σ : RecordSort ι ρ κ) (number : ι ≃ Nat) (records : ι → Option ρ)
    (table : List ρ) : Prop where
  index_eq : ∀ i, σ.index i = number i
  get : ∀ i, records i = table[number i]?

theorem InTable.mem_iff {σ : RecordSort ι ρ κ} {number : ι ≃ Nat} {records : ι → Option ρ}
    {table : List ρ} (ht : InTable σ number records table) {r : ρ} :
    r ∈ table ↔ ∃ i, records i = some r := by
  simp only [List.mem_iff_getElem?, ht.get]
  exact number.surjective.exists

/-- What ascends has no duplicates. -/
theorem nodup_of_ascending {α : Type} {g : α → Nat} {l : List α}
    (hl : l.Pairwise fun a b => g a < g b) : l.Nodup := by
  refine hl.imp ?_
  rintro a _ hlt rfl
  exact Nat.lt_irrefl _ hlt

namespace Owned

variable {σ : RecordSort ι ρ κ} {lists lists' : ClassId → Option (List ι)}
  {records records' : ι → Option ρ}

theorem empty : Owned σ (fun _ => none) (fun _ => none) where
  id_eq hr := by cases hr
  mem_iff hl := by cases hl
  sorted hl := by cases hl
  owner_listed hr := by cases hr
  key_inj hr := by cases hr

/-- Looking up what an owner lists gives its records, and drops nothing. -/
theorem mem_filterMap_iff (h : Owned σ lists records) {c : ClassId} {l : List ι}
    (hl : lists c = some l) {r : ρ} :
    r ∈ l.filterMap records ↔ records (σ.id r) = some r ∧ σ.owner r = c := by
  rw [List.mem_filterMap]
  constructor
  · rintro ⟨i, hi, hr⟩
    obtain ⟨r', hr', howner⟩ := (h.mem_iff hl i).1 hi
    rw [hr] at hr'
    cases hr'
    rw [h.id_eq hr]
    exact ⟨hr, howner⟩
  · rintro ⟨hr, howner⟩
    exact ⟨σ.id r, (h.mem_iff hl _).2 ⟨r, hr, howner⟩, hr⟩

/-- Looking up what an owner lists drops nothing. -/
theorem map_id_filterMap (h : Owned σ lists records) {c : ClassId} {l : List ι}
    (hl : lists c = some l) : (l.filterMap records).map σ.id = l := by
  rw [List.map_filterMap]
  refine Eq.trans (List.filterMap_congr fun i hi => ?_) List.filterMap_some
  obtain ⟨r, hr, -⟩ := (h.mem_iff hl i).1 hi
  rw [hr, Option.map_some, h.id_eq hr]

theorem list_nodup (h : Owned σ lists records) {c : ClassId} {l : List ι} (hl : lists c = some l) :
    l.Nodup := nodup_of_ascending (h.sorted hl)

/-- The records of one owner have different keys. -/
theorem keys_nodup (h : Owned σ lists records) {c : ClassId} {l : List ι}
    (hl : lists c = some l) : ((l.filterMap records).map σ.key).Nodup := by
  have hnodup : (l.filterMap records).Nodup := by
    refine List.Nodup.of_map σ.id ?_
    rw [h.map_id_filterMap hl]
    exact h.list_nodup hl
  refine hnodup.map_on fun r hr s hs hkey => ?_
  obtain ⟨hr, hro⟩ := (h.mem_filterMap_iff hl).1 hr
  obtain ⟨hs, hso⟩ := (h.mem_filterMap_iff hl).1 hs
  have hid := h.key_inj hr hs (hro.trans hso.symm) hkey
  rw [← hid, hr] at hs
  exact Option.some.inj hs

/-! ## In a table -/

section Table

variable {number : ι ≃ Nat} {table : List ρ}

theorem id_get (h : Owned σ lists records) (ht : InTable σ number records table) {n : Nat}
    (hn : n < table.length) : number (σ.id table[n]) = n := by
  have hr : records (number.symm n) = some table[n] := by
    rw [ht.get, number.apply_symm_apply, List.getElem?_eq_getElem hn]
  rw [h.id_eq hr, number.apply_symm_apply]

theorem table_sorted (h : Owned σ lists records) (ht : InTable σ number records table) :
    table.Pairwise fun r s => σ.index (σ.id r) < σ.index (σ.id s) := by
  refine List.pairwise_iff_getElem.2 fun i j hi hj hij => ?_
  rwa [ht.index_eq, ht.index_eq, h.id_get ht, h.id_get ht]

theorem table_nodup (h : Owned σ lists records) (ht : InTable σ number records table) :
    table.Nodup := nodup_of_ascending (h.table_sorted ht)

/-- No two records of a table have the same tag. -/
theorem tags_nodup (h : Owned σ lists records) (ht : InTable σ number records table) :
    (table.map σ.tag).Nodup := by
  refine (h.table_nodup ht).map_on fun r hr s hs htag => ?_
  obtain ⟨i, hr⟩ := ht.mem_iff.1 hr
  obtain ⟨j, hs⟩ := ht.mem_iff.1 hs
  have hij := h.key_inj hr hs (congrArg Prod.fst htag) (congrArg Prod.snd htag)
  rw [hij, hs] at hr
  exact (Option.some.inj hr).symm

/-- What an owner lists are its records, in the order of the table. -/
theorem filterMap_eq_filter (h : Owned σ lists records) (ht : InTable σ number records table)
    {c : ClassId} {l : List ι} (hl : lists c = some l) :
    l.filterMap records = table.filter fun r => σ.owner r = c := by
  have hsorted : (l.filterMap records).Pairwise fun r s => σ.index (σ.id r) < σ.index (σ.id s) := by
    have hids := h.sorted hl
    rwa [← h.map_id_filterMap hl, List.pairwise_map] at hids
  have hsorted' : (table.filter fun r => σ.owner r = c).Pairwise
      fun r s => σ.index (σ.id r) < σ.index (σ.id s) := (h.table_sorted ht).filter _
  -- both are in the order of the ids, so it is enough that they have the same records
  refine List.Perm.eq_of_pairwise (fun r s _ _ hrs hsr => absurd hrs (Nat.lt_asymm hsr)) hsorted
    hsorted' ((List.perm_ext_iff_of_nodup (nodup_of_ascending hsorted)
      (nodup_of_ascending hsorted')).2 fun r => ?_)
  rw [h.mem_filterMap_iff hl, List.mem_filter, decide_eq_true_iff, ht.mem_iff]
  refine and_congr_left fun _ => ⟨fun hr => ⟨_, hr⟩, ?_⟩
  rintro ⟨i, hr⟩
  rwa [h.id_eq hr]

/-- A key is new to an owner when its tag is new to the table. -/
theorem tag_notMem_iff (h : Owned σ lists records) (ht : InTable σ number records table)
    {c : ClassId} {l : List ι} (hl : lists c = some l) {k : κ} :
    (c, k) ∉ table.map σ.tag ↔ ∀ r ∈ l.filterMap records, σ.key r ≠ k := by
  rw [h.filterMap_eq_filter ht hl, List.mem_map]
  simp only [List.mem_filter, decide_eq_true_iff, RecordSort.tag, Prod.mk.injEq]
  constructor
  · exact fun hno r hr hkey => hno ⟨r, hr.1, hr.2, hkey⟩
  · rintro hno ⟨r, hr, howner, hkey⟩
    exact hno r ⟨hr, howner⟩ hkey

end Table

/-- Only the lists and the records count. -/
theorem congr (h : Owned σ lists records) (hlists : ∀ c, lists' c = lists c)
    (hrecords : ∀ i, records' i = records i) : Owned σ lists' records' := by
  rwa [funext hlists, funext hrecords]

/-- A new owner starts without records. -/
theorem newOwner (h : Owned σ lists records) {new : ClassId} (hnew : lists new = none)
    (hlists : ∀ c, lists' c = if c = new then some [] else lists c) :
    Owned σ lists' records where
  id_eq := h.id_eq
  mem_iff := by
    intro c l hl i
    rw [hlists] at hl
    split at hl
    · next hc =>
      cases hl
      subst hc
      refine iff_of_false List.not_mem_nil ?_
      rintro ⟨r, hr, rfl⟩
      obtain ⟨l, hl⟩ := h.owner_listed hr
      rw [hnew] at hl
      cases hl
    · exact h.mem_iff hl i
  sorted := by
    intro c l hl
    rw [hlists] at hl
    split at hl
    · cases hl
      exact .nil
    · exact h.sorted hl
  owner_listed := by
    intro i r hr
    rw [hlists]
    split
    · exact ⟨[], rfl⟩
    · exact h.owner_listed hr
  key_inj := h.key_inj

section Add

variable {r : ρ} {l : List ι}

/-- With a record that comes last, the list of its owner is in order again. -/
theorem add_sorted (h : Owned σ lists records) (hl : lists (σ.owner r) = some l)
    (hbound : ∀ i s, records i = some s → σ.index i < σ.index (σ.id r)) :
    (l ++ [σ.id r]).Pairwise fun i j => σ.index i < σ.index j := by
  refine List.pairwise_append.2 ⟨h.sorted hl, List.pairwise_singleton _ _, ?_⟩
  intro i hi j hj
  obtain ⟨s, hs, -⟩ := (h.mem_iff hl i).1 hi
  rw [List.mem_singleton.1 hj]
  exact hbound i s hs

variable [DecidableEq ι]

/-- A record with a new key stays apart from those of its owner. -/
theorem add_key_inj (h : Owned σ lists records) (hl : lists (σ.owner r) = some l)
    (hkey : ∀ s ∈ l.filterMap records, σ.key s ≠ σ.key r)
    (hrecords : ∀ i, records' i = if i = σ.id r then some r else records i) {i j : ι} {s t : ρ}
    (hs : records' i = some s) (ht : records' j = some t) (howner : σ.owner s = σ.owner t)
    (hst : σ.key s = σ.key t) : i = j := by
  have hother {i : ι} {s : ρ} (hs : records i = some s) (howner : σ.owner s = σ.owner r) :
      σ.key s ≠ σ.key r := hkey s ((h.mem_filterMap_iff hl).2 ⟨h.id_eq hs ▸ hs, howner⟩)
  rw [hrecords] at hs ht
  split at hs
  · next hi =>
    cases hs
    split at ht
    · next hj => rw [hi, hj]
    · exact absurd hst.symm (hother ht howner.symm)
  · split at ht
    · cases ht
      exact absurd hst (hother hs howner)
    · exact h.key_inj hs ht howner hst

/-- **A new record comes last in the list of its owner.** -/
theorem add (h : Owned σ lists records) (hl : lists (σ.owner r) = some l)
    (hbound : ∀ i s, records i = some s → σ.index i < σ.index (σ.id r))
    (hkey : ∀ s ∈ l.filterMap records, σ.key s ≠ σ.key r)
    (hrecords : ∀ i, records' i = if i = σ.id r then some r else records i)
    (hlists : ∀ c, lists' c =
      if c = σ.owner r then (lists c).map (· ++ [σ.id r]) else lists c) :
    Owned σ lists' records' where
  id_eq := by
    intro i s hs
    rw [hrecords] at hs
    split at hs
    · next hi =>
      cases hs
      exact hi.symm
    · exact h.id_eq hs
  mem_iff := by
    intro c k hk i
    rw [hlists] at hk
    split at hk
    · next hc =>
      subst hc
      rw [hl] at hk
      cases hk
      rw [List.mem_append, List.mem_singleton, h.mem_iff hl, hrecords]
      by_cases hi : i = σ.id r
      · simp [hi]
      · simp [hi]
    · next hc =>
      rw [h.mem_iff hk, hrecords]
      split
      · next hi =>
        -- the new id belongs to its owner only
        subst hi
        have hnone : ¬ ∃ s, records (σ.id r) = some s ∧ σ.owner s = c := fun ⟨s, hs, _⟩ =>
          Nat.lt_irrefl _ (hbound _ s hs)
        refine iff_of_false hnone ?_
        rintro ⟨s, hs, rfl⟩
        exact hc (by rw [Option.some.inj hs])
      · rfl
  sorted := by
    intro c k hk
    rw [hlists] at hk
    split at hk
    · next hc =>
      subst hc
      rw [hl] at hk
      cases hk
      exact h.add_sorted hl hbound
    · exact h.sorted hk
  owner_listed := by
    intro i s hs
    rw [hlists]
    split
    · next hc => exact ⟨l ++ [σ.id r], by rw [hc, hl]; rfl⟩
    · next hc =>
      rw [hrecords] at hs
      split at hs
      · cases hs
        exact absurd rfl hc
      · exact h.owner_listed hs
  key_inj := h.add_key_inj hl hkey hrecords

end Add

end Owned

end ConstructorCheck
