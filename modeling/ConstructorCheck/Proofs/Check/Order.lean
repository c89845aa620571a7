import ConstructorCheck.Hierarchy.History
import ConstructorCheck.Proofs.Check.Batch
import Mathlib.Order.Defs.LinearOrder
/-!
# The order of findings

A batch reports its findings sorted by their keys: place, kind, constructor and target. The order is
lexicographic and tells different keys apart, but a key does not tell findings apart: two members
of one class that are constructed at one point can have findings with the same key.

* `keyOrder_eq_eq_iff` — the order of keys takes no two keys for the same
* `filter_sort` — sorting keeps the findings of one key in their order
* `map_key_sort_of_perm` — the sequence of keys does not depend on the order before
* `sort_append_sort` — sorting two lists beforehand makes no difference to sorting both
* `checkSites_spec` — what a batch reports, when it fails, and what does not matter to either

Sorting by a key that ties can depend on the order before. So another order of the sites may change
which of the tied findings comes first, but never the sequence of keys.
-/

namespace ConstructorCheck

/-! ## Sorting by a key -/

section SortBy

variable {α κ : Type} (cmp : κ → κ → Ordering) (key : α → κ)

/-- The sequence of keys is the sorted sequence of all keys. -/
theorem map_mergeSort_by_key (l : List α) :
    (l.mergeSort fun a b => (cmp (key a) (key b)).isLE).map key =
      (l.map key).mergeSort fun k k' => (cmp k k').isLE :=
  List.map_mergeSort fun _ _ _ _ => rfl

variable [Std.TransCmp cmp]

theorem key_isLE_trans (a b c : α) (hab : (cmp (key a) (key b)).isLE = true)
    (hbc : (cmp (key b) (key c)).isLE = true) : (cmp (key a) (key c)).isLE = true :=
  Std.TransCmp.isLE_trans hab hbc

theorem key_isLE_total (a b : α) :
    ((cmp (key a) (key b)).isLE || (cmp (key b) (key a)).isLE) = true := by
  have hswap : cmp (key b) (key a) = (cmp (key a) (key b)).swap := Std.OrientedCmp.eq_swap
  rw [hswap]
  cases cmp (key a) (key b) <;> rfl

/-- Entries of one key stay in their order. -/
theorem filter_mergeSort_by_key [DecidableEq κ] (l : List α) (k : κ) :
    (l.mergeSort fun a b => (cmp (key a) (key b)).isLE).filter (fun a => key a = k) =
      l.filter fun a => key a = k := by
  have hties : (l.filter fun a => key a = k).Pairwise fun a b =>
      (cmp (key a) (key b)).isLE = true := by
    refine List.pairwise_of_forall_mem_list fun a ha b hb => ?_
    rw [of_decide_eq_true (List.mem_filter.1 ha).2, of_decide_eq_true (List.mem_filter.1 hb).2]
    exact Std.ReflCmp.isLE_rfl
  have hsub :=
    List.sublist_mergeSort (key_isLE_trans cmp key) (key_isLE_total cmp key) hties
      List.filter_sublist
  have hfilter := hsub.filter fun a => key a = k
  rw [List.filter_filter] at hfilter
  simp only [Bool.and_self] at hfilter
  exact (hfilter.eq_of_length ((List.mergeSort_perm l _).filter _).length_eq.symm).symm

/-- As long as different keys compare differently, keys can be sorted in one way only. -/
theorem eq_of_perm_of_sorted [Std.LawfulEqCmp cmp] {l l' : List κ} (hp : l.Perm l')
    (hl : l.Pairwise fun k k' => (cmp k k').isLE = true)
    (hl' : l'.Pairwise fun k k' => (cmp k k').isLE = true) : l = l' := by
  refine List.Perm.eq_of_pairwise (fun k k' _ _ hle hge => ?_) hl hl' hp
  exact Std.LawfulEqCmp.eq_of_compare (Std.OrientedCmp.isLE_antisymm hle hge)

/-- So sorting forgets the order before. -/
theorem mergeSort_eq_of_perm [Std.LawfulEqCmp cmp] {l l' : List κ} (hp : l.Perm l') :
    (l.mergeSort fun k k' => (cmp k k').isLE) = l'.mergeSort fun k k' => (cmp k k').isLE := by
  have hsorted (l : List κ) :=
    List.pairwise_mergeSort (key_isLE_trans cmp id) (key_isLE_total cmp id) l
  refine eq_of_perm_of_sorted cmp ?_ (hsorted l) (hsorted l')
  exact (List.mergeSort_perm l _).trans (hp.trans (List.mergeSort_perm l' _).symm)

theorem mem_iff_of_filter_eq [DecidableEq κ] {l l' : List α}
    (hfilter : ∀ k, (l.filter fun a => key a = k) = l'.filter fun a => key a = k) {a : α} :
    a ∈ l ↔ a ∈ l' := by
  simpa using congrArg (a ∈ ·) (hfilter (key a))

/-- A sorted list is determined by what it holds of each key, in which order. -/
theorem eq_of_filter_eq [Std.LawfulEqCmp cmp] [DecidableEq κ] {l l' : List α}
    (hl : l.Pairwise fun a b => (cmp (key a) (key b)).isLE = true)
    (hl' : l'.Pairwise fun a b => (cmp (key a) (key b)).isLE = true)
    (hfilter : ∀ k, (l.filter fun a => key a = k) = l'.filter fun a => key a = k) : l = l' := by
  induction l generalizing l' with
  | nil =>
    refine (List.eq_nil_iff_forall_not_mem.2 fun a ha => ?_).symm
    cases (mem_iff_of_filter_eq key hfilter).2 ha
  | cons a l ih =>
    have hmem {c : α} := mem_iff_of_filter_eq key hfilter (a := c)
    cases l' with
    | nil => cases hmem.1 List.mem_cons_self
    | cons b l' =>
      obtain ⟨ha, htl⟩ := List.pairwise_cons.1 hl
      obtain ⟨hb, htl'⟩ := List.pairwise_cons.1 hl'
      -- each head is in the other list, so neither key is greater than the other
      have hle : (cmp (key a) (key b)).isLE = true := by
        rcases List.mem_cons.1 (hmem.2 List.mem_cons_self) with rfl | hbl
        · exact Std.ReflCmp.isLE_rfl
        · exact ha b hbl
      have hge : (cmp (key b) (key a)).isLE = true := by
        rcases List.mem_cons.1 (hmem.1 List.mem_cons_self) with rfl | hal
        · exact Std.ReflCmp.isLE_rfl
        · exact hb a hal
      have hkey : key a = key b :=
        Std.LawfulEqCmp.eq_of_compare (Std.OrientedCmp.isLE_antisymm hle hge)
      have hhead := hfilter (key a)
      rw [List.filter_cons_of_pos (by simp), List.filter_cons_of_pos (by simp [hkey])] at hhead
      obtain ⟨rfl, -⟩ := List.cons.inj hhead
      have htail (k : κ) : (l.filter fun a => key a = k) = l'.filter fun a => key a = k := by
        have hk := hfilter k
        rw [List.filter_cons, List.filter_cons] at hk
        split at hk
        · exact (List.cons.inj hk).2
        · exact hk
      rw [ih htl htl' htail]

/-- Sorting two lists beforehand makes no difference to sorting both. -/
theorem mergeSort_append_by_key [Std.LawfulEqCmp cmp] [DecidableEq κ] (l l' : List α) :
    ((l.mergeSort fun a b => (cmp (key a) (key b)).isLE) ++
      l'.mergeSort fun a b => (cmp (key a) (key b)).isLE).mergeSort
        (fun a b => (cmp (key a) (key b)).isLE) =
      (l ++ l').mergeSort fun a b => (cmp (key a) (key b)).isLE := by
  have hsorted (l : List α) :=
    List.pairwise_mergeSort (key_isLE_trans cmp key) (key_isLE_total cmp key) l
  refine eq_of_filter_eq cmp key (hsorted _) (hsorted _) fun k => ?_
  simp only [filter_mergeSort_by_key, List.filter_append]

end SortBy

/-! ## The keys of findings -/

instance : Std.TransOrd Span :=
  inferInstanceAs (Std.TransCmp (compareLex (compareOn Span.file)
    (compareLex (compareOn Span.start) (compareOn Span.stop))))

instance : Std.LawfulEqOrd Span where
  eq_of_compare {s t} he := by
    obtain ⟨hfile, he⟩ := compareLex_eq_eq.1 he
    obtain ⟨hstart, hstop⟩ := compareLex_eq_eq.1 he
    cases s
    cases t
    rw [Span.mk.injEq]
    exact ⟨Nat.compare_eq_eq.1 hfile, Nat.compare_eq_eq.1 hstart, Nat.compare_eq_eq.1 hstop⟩

/-- Spans are ordered by file, those in one file by start, and those with one start by stop. -/
theorem Span.isLE_compare_iff {s t : Span} : (compare s t).isLE = true ↔
    s.file < t.file ∨
      s.file = t.file ∧ (s.start < t.start ∨ s.start = t.start ∧ s.stop ≤ t.stop) := by
  show (compareLex (compareOn Span.file)
    (compareLex (compareOn Span.start) (compareOn Span.stop)) s t).isLE = true ↔ _
  simp only [compareLex, compareOn, Ordering.isLE_then_iff_or, Nat.compare_eq_lt,
    Nat.compare_eq_eq, Nat.isLE_compare]

instance : Std.TransOrd ConstructorRef :=
  inferInstanceAs (Std.TransCmp (compareLex (compareOn ConstructorRef.sort)
    (compareOn ConstructorRef.index)))

instance : Std.LawfulEqOrd ConstructorRef where
  eq_of_compare {k l} he := by
    obtain ⟨hsort, hindex⟩ := compareLex_eq_eq.1 he
    have hsort := Nat.compare_eq_eq.1 hsort
    have hindex := Nat.compare_eq_eq.1 hindex
    cases k with
    | declared id =>
      cases l with
      | declared id' => exact congrArg (fun i => ConstructorRef.declared ⟨i⟩) hindex
      | implicit id' => cases hsort
    | implicit id =>
      cases l with
      | declared id' => cases hsort
      | implicit id' => exact congrArg (fun i => ConstructorRef.implicit ⟨i⟩) hindex

theorem FindingKind.rank_injective : Function.Injective FindingKind.rank := by
  intro a b hab
  cases a <;> cases b <;> first | rfl | cases hab

namespace Finding

/-- What findings are sorted by. -/
abbrev Key := Span × FindingKind × Option ConstructorRef × ClassId

def key (x : Finding) : Key := (x.location, x.kind, x.constructor?, x.target)

/-- Keys are compared part by part. -/
def keyOrder : Key → Key → Ordering :=
  compareLex (compareOn (·.1)) <|
    compareLex (compareOn (·.2.1.rank)) <|
      compareLex (compareOn (·.2.2.1)) (compareOn (·.2.2.2.index))

instance : Std.TransCmp keyOrder :=
  inferInstanceAs (Std.TransCmp (compareLex _ (compareLex _ (compareLex _ _))))

instance : Std.LawfulEqCmp keyOrder where
  eq_of_compare {k l} he := by
    obtain ⟨hplace, he⟩ := compareLex_eq_eq.1 he
    obtain ⟨hkind, he⟩ := compareLex_eq_eq.1 he
    obtain ⟨hconstructor, htarget⟩ := compareLex_eq_eq.1 he
    obtain ⟨place, kind, constructor?, ⟨target⟩⟩ := k
    obtain ⟨place', kind', constructor?', ⟨target'⟩⟩ := l
    simp only [Prod.mk.injEq, ClassId.mk.injEq]
    exact ⟨Std.LawfulEqCmp.eq_of_compare hplace,
      FindingKind.rank_injective (Nat.compare_eq_eq.1 hkind),
      Std.LawfulEqCmp.eq_of_compare hconstructor, Nat.compare_eq_eq.1 htarget⟩

theorem keyOrder_eq_eq_iff {k l : Key} : keyOrder k l = .eq ↔ k = l :=
  Std.LawfulEqCmp.compare_eq_iff_eq

theorem location_isLE_of_order {x y : Finding} (hle : (order x y).isLE = true) :
    (compare x.location y.location).isLE = true :=
  (Ordering.isLE_then_iff_and.1 hle).1

theorem sort_sorted (xs : List Finding) :
    (sort xs).Pairwise fun x y => (order x y).isLE = true :=
  List.pairwise_mergeSort (key_isLE_trans keyOrder key) (key_isLE_total keyOrder key) xs

theorem sort_of_sorted {xs : List Finding}
    (hxs : xs.Pairwise fun x y => (keyOrder x.key y.key).isLE = true) : sort xs = xs :=
  List.mergeSort_of_pairwise hxs

/-- **Sorting keeps the findings of one key in their order.** -/
theorem filter_sort (xs : List Finding) (k : Key) :
    ((sort xs).filter fun x => x.key = k) = xs.filter fun x => x.key = k :=
  filter_mergeSort_by_key keyOrder key xs k

/-- **The sequence of keys does not depend on the order before.** -/
theorem map_key_sort_of_perm {xs ys : List Finding} (hp : xs.Perm ys) :
    (sort xs).map key = (sort ys).map key := by
  calc (sort xs).map key
      = (xs.map key).mergeSort fun k k' => (keyOrder k k').isLE :=
      map_mergeSort_by_key keyOrder key xs
    _ = (ys.map key).mergeSort fun k k' => (keyOrder k k').isLE :=
      mergeSort_eq_of_perm keyOrder (hp.map key)
    _ = (sort ys).map key := (map_mergeSort_by_key keyOrder key ys).symm

/-- **Sorting two lists beforehand makes no difference to sorting both**, not even to ties. -/
theorem sort_append_sort (xs ys : List Finding) : sort (sort xs ++ sort ys) = sort (xs ++ ys) :=
  mergeSort_append_by_key keyOrder key xs ys

end Finding

/-! ## What a batch reports -/

namespace Hierarchy

variable {h : Hierarchy} {o : Options} {sites : List Site}

/--
**What a batch of sites reports.** It fails when one of its sites does, with the error of such a
site; one site after the other, with the error of the first. Otherwise it reports what is found at
its sites, each finding as often as it is found there, in the order of the keys and findings of one
key in the order of the sites. Neither the options nor how the work is split among workers make a
difference to that. The same sites in another order give the same findings with the same sequence of
keys.
-/
theorem checkSites_spec (h : Hierarchy) (sites : List Site) :
    (∀ [ParallelMap] (o : Options), (∃ e, h.checkSites o sites = .error e) ↔
      ∃ s ∈ sites, ∃ e, h.checkSite s = .error e) ∧
    (∀ [ParallelMap] (o : Options) e, h.checkSites o sites = .error e →
      ∃ s ∈ sites, h.checkSite s = .error e) ∧
    (∀ [ParallelMap] (o : Options) e, o.runsInParallel sites.length = false →
      (h.checkSites o sites = .error e ↔ ∃ before s after, sites = before ++ s :: after ∧
        (∀ b ∈ before, ∃ v, h.checkSite b = .ok v) ∧ h.checkSite s = .error e)) ∧
    ((∀ s ∈ sites, ∃ v, h.checkSite s = .ok v) → ∃ xs,
      (∀ [ParallelMap] (o : Options), h.checkSites o sites = .ok xs) ∧
      xs.Perm (h.findingsAt sites) ∧
      (xs.Pairwise fun x y => (Finding.keyOrder x.key y.key).isLE = true) ∧
      (∀ k : Finding.Key, (xs.filter fun x => x.key = k) =
        (h.findingsAt sites).filter fun x => x.key = k) ∧
      ∀ sites', sites.Perm sites' → ∃ xs',
        (∀ [ParallelMap] (o : Options), h.checkSites o sites' = .ok xs') ∧
        xs.Perm xs' ∧ xs.map Finding.key = xs'.map Finding.key) := by
  refine ⟨fun o => exists_checkSites_eq_error_iff, fun o e => exists_of_checkSites_eq_error,
    fun o e => checkSites_eq_error_iff, fun hall => ?_⟩
  refine ⟨_, fun o => checkSites_eq_sort hall, sort_perm _, Finding.sort_sorted _,
    Finding.filter_sort _, fun sites' hp => ?_⟩
  have hall' : ∀ s ∈ sites', ∃ v, h.checkSite s = .ok v := fun s hs => hall s (hp.mem_iff.2 hs)
  have hfound := findingsAt_perm (h := h) hp
  exact ⟨_, fun o => checkSites_eq_sort hall',
    (sort_perm _).trans (hfound.trans (sort_perm _).symm), Finding.map_key_sort_of_perm hfound⟩

/--
Two members without initializers, of a class whose constructor is private: at one place the findings
tie. At several places, and with a member of a class whose constructor takes an argument, each key
is in its turn: file, start, stop, and then the kind. Two members that do not exist are errors: the
first of them is reported if the sites are checked one after the other, and either of them if they
are checked at once.
-/
theorem checkSites_spec_tied_members :
    let h := Hierarchy.empty.run [.newClass "Part" .unknown,
      .constructor ⟨0⟩ [] .privateAccess .unknown, .newClass "Whole" .unknown,
      .member ⟨1⟩ "left" (.ofClass ⟨0⟩) .publicAccess none .unknown,
      .member ⟨1⟩ "right" (.ofClass ⟨0⟩) .publicAccess none .unknown,
      .newClass "Gauge" .unknown,
      .constructor ⟨2⟩ [⟨.primitive .int, false⟩] .publicAccess .unknown,
      .member ⟨1⟩ "gauge" (.ofClass ⟨2⟩) .publicAccess none .unknown]
    let s (id : Nat) (place : Span) : Site := ⟨⟨1⟩, .member ⟨id⟩, none, place⟩
    let x (id : Nat) : Finding :=
      .inaccessible (s id .unknown) ⟨.declared ⟨0⟩, ⟨0⟩, .privateAccess, []⟩
    (∀ [ParallelMap] (o : Options),
      h.checkSites o [s 0 .unknown, s 1 .unknown] = .ok [x 0, x 1]) ∧ (x 0).key = (x 1).key ∧
    (∀ [ParallelMap] (o : Options),
      h.checkSites o [s 1 .unknown, s 0 .unknown] = .ok [x 1, x 0]) ∧
    (∃ xs, (∀ [ParallelMap] (o : Options), h.checkSites o
        [s 2 ⟨0, 4, 6⟩, s 0 ⟨1, 0, 5⟩, s 0 ⟨0, 4, 9⟩, s 0 ⟨0, 4, 6⟩, s 1 ⟨0, 2, 8⟩] = .ok xs) ∧
      xs.map Finding.key =
        [(⟨0, 2, 8⟩, .inaccessibleConstructor, some (.declared ⟨0⟩), ⟨0⟩),
          (⟨0, 4, 6⟩, .inaccessibleConstructor, some (.declared ⟨0⟩), ⟨0⟩),
          (⟨0, 4, 6⟩, .missingImplicitDefault, none, ⟨2⟩),
          (⟨0, 4, 9⟩, .inaccessibleConstructor, some (.declared ⟨0⟩), ⟨0⟩),
          (⟨1, 0, 5⟩, .inaccessibleConstructor, some (.declared ⟨0⟩), ⟨0⟩)]) ∧
    @checkSites .tasks h ⟨true, 1, true⟩ [s 0 .unknown, s 1 .unknown] = .ok [x 0, x 1] ∧
    (∀ [ParallelMap] (o : Options), ∃ e,
      h.checkSites o [s 0 .unknown, s 3 .unknown, s 4 .unknown] = .error e) ∧
    (∀ [ParallelMap] (o : Options), o.parallel = false →
      h.checkSites o [s 0 .unknown, s 3 .unknown, s 4 .unknown] =
        .error (.lookup (.unknownMember ⟨3⟩))) ∧
    ∃ m : ParallelMap, @checkSites m h ⟨true, 1, true⟩ [s 0 .unknown, s 3 .unknown, s 4 .unknown] =
      .error (.lookup (.unknownMember ⟨4⟩)) := by
  intro h s x
  have hpart (place : Span) : ∃ v, h.checkSite (s 0 place) = .ok v := ⟨_, rfl⟩
  have hright (place : Span) : ∃ v, h.checkSite (s 1 place) = .ok v := ⟨_, rfl⟩
  have hgauge (place : Span) : ∃ v, h.checkSite (s 2 place) = .ok v := ⟨_, rfl⟩
  have hthird : h.checkSite (s 3 .unknown) = .error (.lookup (.unknownMember ⟨3⟩)) := rfl
  have hfourth : h.checkSite (s 4 .unknown) = .error (.lookup (.unknownMember ⟨4⟩)) := rfl
  -- all findings have one key, so they are reported in the order of the sites
  have hreport (sites : List Site) (found : List Finding)
      (hall : ∀ r ∈ sites, ∃ v, h.checkSite r = .ok v) (hfound : h.findingsAt sites = found)
      (hkey : ∀ y ∈ found, y.key = (x 0).key) [ParallelMap] (o : Options) :
      h.checkSites o sites = .ok found := by
    obtain ⟨xs, hxs, hperm, -, hties, -⟩ := (checkSites_spec h sites).2.2.2 hall
    rw [hfound] at hperm
    have hsame := hties (x 0).key
    rw [hfound, List.filter_eq_self.2 fun y hy => decide_eq_true (hkey y hy),
      List.filter_eq_self.2 fun y hy => decide_eq_true (hkey y (hperm.mem_iff.1 hy))] at hsame
    rw [hxs, hsame]
  have htie : (x 1).key = (x 0).key := rfl
  have htied [ParallelMap] (o : Options) :
      h.checkSites o [s 0 .unknown, s 1 .unknown] = .ok [x 0, x 1] :=
    hreport [s 0 .unknown, s 1 .unknown] [x 0, x 1] (by simp [hpart, hright]) rfl
      (by simp [htie]) o
  refine ⟨htied, htie.symm, ?_, ?_, @htied .tasks ⟨true, 1, true⟩, ?_, ?_, ?_⟩
  · intro _ o
    exact hreport [s 1 .unknown, s 0 .unknown] [x 1, x 0] (by simp [hpart, hright]) rfl
      (by simp [htie]) o
  · obtain ⟨xs, hxs, hperm, hsorted, -⟩ := (checkSites_spec h
      [s 2 ⟨0, 4, 6⟩, s 0 ⟨1, 0, 5⟩, s 0 ⟨0, 4, 9⟩, s 0 ⟨0, 4, 6⟩, s 1 ⟨0, 2, 8⟩]).2.2.2
        (by simp [hpart, hright, hgauge])
    refine ⟨xs, hxs, eq_of_perm_of_sorted Finding.keyOrder ?_ (List.pairwise_map.2 hsorted)
      (by decide)⟩
    exact (hperm.map Finding.key).trans (by decide)
  · intro _ o
    exact ((checkSites_spec h _).1 o).2 ⟨s 3 .unknown, by simp, _, hthird⟩
  · intro _ o hseq
    refine ((checkSites_spec h _).2.2.1 o _ ?_).2 ⟨[s 0 .unknown], s 3 .unknown, [s 4 .unknown],
      rfl, by simp [hpart], hthird⟩
    rw [Options.runsInParallel, hseq, Bool.false_and]
  · exact (exists_parallelMap_iff rfl).2 ⟨s 4 .unknown, by simp, hfourth⟩

end Hierarchy

end ConstructorCheck
