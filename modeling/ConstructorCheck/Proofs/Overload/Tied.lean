import Mathlib
import ConstructorCheck.Hierarchy.History
import ConstructorCheck.Proofs.Hierarchy.WellFormed
import ConstructorCheck.Proofs.Overload.Best
/-!
# Tied candidates

When no candidate is best, resolution lists the viable candidates that the survivor of its first
pass does not beat. The survivor is undominated: being better is transitive, so whatever it
replaced on its way cannot beat it either. But a candidate that it does not beat may be beaten by
another one, and which undominated candidate survives depends on the order.

* `not_better_survivor` — no entry beats the survivor
* `tied_spec` — what the list of tied candidates consists of
* `tied_lists_dominated` — three constructors, two arguments, and a list that depends on the order

For one argument the ranks are linearly ordered, and the list is what it should be.
-/

namespace ConstructorCheck

open ConversionRank (better better_irrefl better_trans)

/-! ## The survivor -/

section Survivor

variable {first : Ranked} {rest : List Ranked} {n : Nat}

theorem survivor_cons (first e : Ranked) (rest : List Ranked) :
    survivor first (e :: rest) =
      survivor (if better e.ranks first.ranks then e else first) rest := rfl

/-- Each replacement is an improvement. -/
theorem survivor_eq_or_better (hlen : ∀ e ∈ first :: rest, e.ranks.length = n) :
    survivor first rest = first ∨ better (survivor first rest).ranks first.ranks = true := by
  induction rest generalizing first with
  | nil => exact Or.inl rfl
  | cons e rest ih =>
    obtain ⟨hfirst, htail⟩ := List.forall_mem_cons.1 hlen
    obtain ⟨he, hrest⟩ := List.forall_mem_cons.1 htail
    rw [survivor_cons]
    split
    · next hreplace =>
      rcases ih htail with hs | hs
      · rw [hs]
        exact Or.inr hreplace
      · have hsurvivor := htail _ (survivor_mem e rest)
        exact Or.inr (better_trans (hsurvivor.trans he.symm) hs hreplace)
    · exact ih (List.forall_mem_cons.2 ⟨hfirst, hrest⟩)

/-- **No entry beats the survivor.** -/
theorem not_better_survivor (hlen : ∀ e ∈ first :: rest, e.ranks.length = n) :
    ∀ e ∈ first :: rest, better e.ranks (survivor first rest).ranks = false := by
  induction rest generalizing first with
  | nil => simp [survivor, better_irrefl]
  | cons e rest ih =>
    obtain ⟨hfirst, htail⟩ := List.forall_mem_cons.1 hlen
    obtain ⟨he, hrest⟩ := List.forall_mem_cons.1 htail
    rw [survivor_cons]
    split
    · next hreplace =>
      refine List.forall_mem_cons.2 ⟨Bool.eq_false_iff.2 fun hb => ?_, ih htail⟩
      -- what beats the survivor would be beaten by what replaced it
      have hworse := better_trans (he.trans hfirst.symm) hreplace hb
      rw [ih htail e List.mem_cons_self] at hworse
      cases hworse
    · next hkeep =>
      have hkept : ∀ d ∈ first :: rest, d.ranks.length = n :=
        List.forall_mem_cons.2 ⟨hfirst, hrest⟩
      obtain ⟨hs, hs_rest⟩ := List.forall_mem_cons.1 (ih hkept)
      refine List.forall_mem_cons.2 ⟨hs, List.forall_mem_cons.2 ⟨?_, hs_rest⟩⟩
      -- what beats the survivor would have replaced the one before
      refine Bool.eq_false_iff.2 fun hb => hkeep ?_
      rcases survivor_eq_or_better hkept with heq | hbetter
      · rwa [heq] at hb
      · have hsurvivor := hkept _ (survivor_mem first rest)
        exact better_trans (he.trans hsurvivor.symm) hb hbetter

end Survivor

/-! ## Tied candidates -/

namespace Hierarchy

/-- A viable candidate of a list that no viable one is better than. -/
structure Undominated (h : Hierarchy) (args : List TypeRef) (c : Candidate)
    (cs : List Candidate) : Prop where
  mem : c ∈ cs
  viable : h.Viable args c
  unbeaten : ∀ d ∈ cs, h.Viable args d → ¬ h.Better args d c

variable {h : Hierarchy} {args : List TypeRef} {cs : List Candidate} {c d : Candidate}
  {tied : List ConstructorRef}

theorem Undominated.perm {ds : List Candidate} (hc : h.Undominated args c cs) (hp : cs.Perm ds) :
    h.Undominated args c ds :=
  ⟨hp.mem_iff.1 hc.mem, hc.viable, fun d hd => hc.unbeaten d (hp.mem_iff.2 hd)⟩

theorem length_ranks_of_mem_viable {e : Ranked} (he : e ∈ h.viable args cs) :
    e.ranks.length = args.length := by
  have hrs := (mem_viable_iff.1 he).2
  exact ((ranks?_eq_some_iff_of_viable (viable_iff_exists_ranks.2 ⟨_, hrs⟩)).1 hrs).1

/-- **The candidate that survives the first pass is undominated.** -/
theorem undominated_survivor {first : Ranked} {rest : List Ranked}
    (hV : h.viable args cs = first :: rest) :
    h.Undominated args (survivor first rest).candidate cs := by
  have hmem : survivor first rest ∈ h.viable args cs := hV ▸ survivor_mem first rest
  obtain ⟨hcs, hrs⟩ := mem_viable_iff.1 hmem
  refine ⟨hcs, viable_iff_exists_ranks.2 ⟨_, hrs⟩, fun d hd hdv hb => ?_⟩
  obtain ⟨ss, hss⟩ := viable_iff_exists_ranks.1 hdv
  have hlen : ∀ e ∈ first :: rest, e.ranks.length = args.length :=
    hV ▸ fun e he => length_ranks_of_mem_viable he
  have hnot := not_better_survivor hlen ⟨d, ss⟩ (hV ▸ mem_viable_iff.2 ⟨hd, hss⟩)
  rw [(better_iff hss hrs).2 hb] at hnot
  cases hnot

/-- The tied candidates are the viable ones that some undominated candidate does not beat. -/
theorem exists_undominated_of_ambiguous (hres : h.resolve cs args = .ambiguous tied) :
    ∃ best, h.Undominated args best cs ∧ ∃ keep : Candidate → Bool,
      (∀ c, keep c = true ↔ h.Viable args c ∧ ¬ h.Better args best c) ∧
        tied = (cs.filter keep).map (·.constructor) := by
  obtain ⟨first, rest, hV, -, htied⟩ := exists_survivor_of_ambiguous hres
  refine ⟨_, undominated_survivor hV, _, fun c => ?_, htied⟩
  have hrs := (mem_viable_iff.1 (hV ▸ survivor_mem first rest)).2
  cases hss : h.ranks? args c with
  | none =>
    have hv : ¬ h.Viable args c := by simp [viable_iff_exists_ranks, hss]
    simp [hv]
  | some ss =>
    have hv : h.Viable args c := viable_iff_exists_ranks.2 ⟨ss, hss⟩
    simp [hv, ← better_iff hrs hss]

/-- A single argument decides between two candidates. -/
theorem better_of_cost_lt (hargs : args.length ≤ 1) {i : Nat} {r s : ConversionRank}
    (hr : h.rankAt args c i = some r) (hs : h.rankAt args d i = some s) (hlt : r.cost < s.cost) :
    h.Better args c d := by
  have hzero {e : Candidate} {j : Nat} {q : ConversionRank} (hq : h.rankAt args e j = some q) :
      j = 0 := by
    have hj := lt_length_of_rankAt hq
    omega
  cases hzero hr
  refine ⟨fun j r' s' hr' hs' => ?_, 0, r, s, hr, hs, hlt⟩
  cases hzero hr'
  cases hr.symm.trans hr'
  cases hs.symm.trans hs'
  exact Nat.le_of_lt hlt

/-- For one argument, what an undominated candidate does not beat is undominated too. -/
theorem Undominated.of_not_better {best : Candidate} (hargs : args.length ≤ 1)
    (hbest : h.Undominated args best cs) (hc : c ∈ cs) (hv : h.Viable args c)
    (hnot : ¬ h.Better args best c) : h.Undominated args c cs := by
  refine ⟨hc, hv, fun d hd hdv hb => ?_⟩
  obtain ⟨i, r, s, hr, hs, hlt⟩ := hb.improves
  obtain ⟨q, hq⟩ := hbest.viable.converts i (lt_length_of_rankAt hr)
  by_cases hqs : q.cost < s.cost
  · exact hnot (better_of_cost_lt hargs hq hs hqs)
  · exact hbest.unbeaten d hd hdv (better_of_cost_lt hargs hr hq (by omega))

theorem constructors_nodup_of_candidatesOf {t : ClassId} (hw : h.WellFormed)
    (hcs : h.candidatesOf t = .ok cs) : (cs.map (·.constructor)).Nodup := by
  obtain ⟨ks, hks, rfl⟩ := map_eq_ok_iff.1 hcs
  obtain ⟨k, hk, rfl⟩ := map_eq_ok_iff.1 hks
  split
  · exact List.nodup_singleton _
  · have hlist : (h.class? t).map (·.constructors) = some k.constructors := by
      rw [getClass_eq_ok_iff.1 hk]
      rfl
    have hids : (h.constructorsOf k).map (·.id) = k.constructors :=
      hw.owned_constructors.map_id_filterMap hlist
    have hmap : ((h.constructorsOf k).map (·.candidate t)).map (·.constructor) =
        k.constructors.map ConstructorRef.declared := by
      rw [← hids, List.map_map, List.map_map]
      rfl
    rw [hmap]
    exact (hw.owned_constructors.list_nodup hlist).map fun _ _ => ConstructorRef.declared.inj

/-- For one argument the tied candidates are the undominated ones. -/
theorem exists_keep_undominated (hargs : args.length ≤ 1)
    (hres : h.resolve cs args = .ambiguous tied) :
    ∃ keep : Candidate → Bool, (∀ c ∈ cs, keep c = true ↔ h.Undominated args c cs) ∧
      tied = (cs.filter keep).map (·.constructor) := by
  obtain ⟨best, hbest, keep, hkeep, htied⟩ := exists_undominated_of_ambiguous hres
  refine ⟨keep, fun c hc => ?_, htied⟩
  rw [hkeep]
  constructor
  · rintro ⟨hv, hnot⟩
    exact hbest.of_not_better hargs hc hv hnot
  · exact fun hu => ⟨hu.viable, hu.unbeaten best hbest.mem hbest.viable⟩

theorem exists_ambiguous_of_perm {ds : List Candidate} (hp : cs.Perm ds)
    (hres : h.resolve cs args = .ambiguous tied) :
    ∃ tied', h.resolve ds args = .ambiguous tied' := by
  have hagrees : (h.resolve cs args).Agrees (h.resolve ds args) := resolve_agrees_of_perm hp
  rw [hres] at hagrees
  cases hds : h.resolve ds args with
  | resolved w => rw [hds] at hagrees; exact hagrees.elim
  | ambiguous tied' => exact ⟨tied', rfl⟩
  | noMatch => rw [hds] at hagrees; exact hagrees.elim

/-- In a list without duplicates a constructor belongs to one candidate. -/
theorem constructor_mem_map_filter_iff (hnodup : (cs.map (·.constructor)).Nodup)
    {keep : Candidate → Bool} (hc : c ∈ cs) :
    c.constructor ∈ (cs.filter keep).map (·.constructor) ↔ keep c = true := by
  constructor
  · intro hmem
    obtain ⟨d, hd, heq⟩ := List.mem_map.1 hmem
    obtain ⟨hd, hkeep⟩ := List.mem_filter.1 hd
    cases List.inj_on_of_nodup_map hnodup hd hc heq
    exact hkeep
  · exact fun hkeep => List.mem_map_of_mem (List.mem_filter.2 ⟨hc, hkeep⟩)

/--
**What the tied candidates are.** There are at least two, without repetition and in the order of
declaration: the viable candidates that one particular undominated candidate does not beat. So every
undominated candidate is listed, for every order of the candidates. For at most one argument nothing
else is listed, and the order only orders the list.
-/
theorem tied_spec {t : ClassId} (hr : h.Reachable) (hcs : h.candidatesOf t = .ok cs)
    (hres : h.resolve cs args = .ambiguous tied) :
    (∃ best, h.Undominated args best cs ∧ ∃ keep : Candidate → Bool,
      (∀ c, keep c = true ↔ h.Viable args c ∧ ¬ h.Better args best c) ∧
        tied = (cs.filter keep).map (·.constructor)) ∧
    tied.Nodup ∧ 2 ≤ tied.length ∧
    (∀ ds, cs.Perm ds → ∃ tied', h.resolve ds args = .ambiguous tied' ∧
      ∀ c, h.Undominated args c cs → c.constructor ∈ tied') ∧
    (args.length ≤ 1 → ∀ c ∈ cs, c.constructor ∈ tied ↔ h.Undominated args c cs) ∧
    (args.length ≤ 1 → ∀ ds, cs.Perm ds →
      ∃ tied', h.resolve ds args = .ambiguous tied' ∧ tied.Perm tied') := by
  have hnodup := constructors_nodup_of_candidatesOf hr.wellFormed hcs
  refine ⟨exists_undominated_of_ambiguous hres, ?_, ?_, fun ds hp => ?_, fun hargs c hc => ?_,
    fun hargs ds hp => ?_⟩
  · obtain ⟨-, -, keep, -, rfl⟩ := exists_undominated_of_ambiguous hres
    exact hnodup.sublist (List.filter_sublist.map _)
  · obtain ⟨-, -, hlen, -⟩ := exists_keep_of_ambiguous hres
    exact hlen
  · obtain ⟨tied', hres'⟩ := exists_ambiguous_of_perm hp hres
    refine ⟨tied', hres', fun c hu => ?_⟩
    obtain ⟨best, hbest, keep, hkeep, rfl⟩ := exists_undominated_of_ambiguous hres'
    have hunbeaten := (hu.perm hp).unbeaten best hbest.mem hbest.viable
    exact List.mem_map_of_mem
      (List.mem_filter.2 ⟨hp.mem_iff.1 hu.mem, (hkeep c).2 ⟨hu.viable, hunbeaten⟩⟩)
  · obtain ⟨keep, hkeep, rfl⟩ := exists_keep_undominated hargs hres
    rw [constructor_mem_map_filter_iff hnodup hc, hkeep c hc]
  · obtain ⟨tied', hres'⟩ := exists_ambiguous_of_perm hp hres
    refine ⟨tied', hres', ?_⟩
    obtain ⟨keep, hkeep, rfl⟩ := exists_keep_undominated hargs hres
    obtain ⟨keep', hkeep', rfl⟩ := exists_keep_undominated hargs hres'
    have hsame : ds.filter keep' = ds.filter keep := List.filter_congr fun c hc => by
      have hback := hp.mem_iff.2 hc
      rw [Bool.eq_iff_iff, hkeep c hback, hkeep' c hc]
      exact ⟨fun hu => hu.perm hp.symm, fun hu => hu.perm hp⟩
    rw [hsame]
    exact (hp.filter keep).map _

/-- Two conversions of one argument are tied in either order. -/
theorem tied_spec_two_conversions :
    let h := Hierarchy.empty.run [.newClass "Target" .unknown,
      .constructor ⟨0⟩ [⟨.primitive .long, false⟩] .publicAccess .unknown,
      .constructor ⟨0⟩ [⟨.primitive .double, false⟩] .publicAccess .unknown]
    ∃ cs, h.Reachable ∧ h.candidatesOf ⟨0⟩ = .ok cs ∧
      h.resolve cs [.primitive .int] = .ambiguous [.declared ⟨0⟩, .declared ⟨1⟩] ∧
        (∀ c ∈ cs, h.Undominated [.primitive .int] c cs) ∧
          ∃ tied, h.resolve cs.reverse [.primitive .int] = .ambiguous tied ∧
            [.declared ⟨0⟩, .declared ⟨1⟩].Perm tied := by
  intro h
  have hr : h.Reachable := ⟨_, rfl⟩
  have hcs : h.candidatesOf ⟨0⟩ =
      .ok [⟨.declared ⟨0⟩, ⟨0⟩, .publicAccess, [⟨.primitive .long, false⟩]⟩,
        ⟨.declared ⟨1⟩, ⟨0⟩, .publicAccess, [⟨.primitive .double, false⟩]⟩] := by
    unfold h
    cbv
  have hres : h.resolve [⟨.declared ⟨0⟩, ⟨0⟩, .publicAccess, [⟨.primitive .long, false⟩]⟩,
      ⟨.declared ⟨1⟩, ⟨0⟩, .publicAccess, [⟨.primitive .double, false⟩]⟩] [.primitive .int] =
      .ambiguous [.declared ⟨0⟩, .declared ⟨1⟩] := by
    unfold h
    cbv
  obtain ⟨-, -, -, -, hexact, hperm⟩ := tied_spec hr hcs hres
  refine ⟨_, hr, hcs, hres, fun c hc => (hexact (Nat.le_refl _) c hc).1 ?_,
    hperm (Nat.le_refl _) _ (List.reverse_perm _).symm⟩
  exact List.mem_map_of_mem (f := (·.constructor)) hc

/-- One class with public constructors that take two scalars each. -/
def ofPairs (params : List (Primitive × Primitive)) : Hierarchy :=
  Hierarchy.empty.run (.newClass "Target" .unknown :: params.map fun p =>
    .constructor ⟨0⟩ [⟨.primitive p.1, false⟩, ⟨.primitive p.2, false⟩] .publicAccess .unknown)

/-- Constructor number `i` of `ofPairs` as a candidate. -/
def pairCandidate (i : Nat) (p q : Primitive) : Candidate :=
  ⟨.declared ⟨i⟩, ⟨0⟩, .publicAccess, [⟨.primitive p, false⟩, ⟨.primitive q, false⟩]⟩

/--
Of these three constructors the second one beats the third. The first one beats neither, so after it
both are listed; when it comes last, the second one survives and the third one is not listed.
-/
theorem tied_lists_dominated :
    let args : List TypeRef := [.primitive .char, .primitive .char]
    let h := ofPairs [(.char, .long), (.long, .char), (.long, .int)]
    let h' := ofPairs [(.long, .char), (.long, .int), (.char, .long)]
    (h.Reachable ∧ ∃ cs, h.candidatesOf ⟨0⟩ = .ok cs ∧
      h.resolve cs args = .ambiguous [.declared ⟨0⟩, .declared ⟨1⟩, .declared ⟨2⟩] ∧
        ∃ c ∈ cs, c.constructor = .declared ⟨2⟩ ∧ h.Viable args c ∧ ¬ h.Undominated args c cs) ∧
    (h'.Reachable ∧ ∃ cs, h'.candidatesOf ⟨0⟩ = .ok cs ∧
      h'.resolve cs args = .ambiguous [.declared ⟨0⟩, .declared ⟨2⟩]) := by
  intro args h h'
  have hcs : h.candidatesOf ⟨0⟩ = .ok [pairCandidate 0 .char .long,
      pairCandidate 1 .long .char, pairCandidate 2 .long .int] := by
    unfold h
    cbv
  have hcs' : h'.candidatesOf ⟨0⟩ = .ok [pairCandidate 0 .long .char,
      pairCandidate 1 .long .int, pairCandidate 2 .char .long] := by
    unfold h'
    cbv
  have hsecond : h.ranks? args (pairCandidate 1 .long .char) = some [.conversion, .exact] := by
    unfold args
    cbv
  have hthird : h.ranks? args (pairCandidate 2 .long .int) = some [.conversion, .promotion] := by
    unfold args
    cbv
  refine ⟨⟨⟨_, rfl⟩, _, hcs, ?_, pairCandidate 2 .long .int, by simp, rfl,
    viable_iff_exists_ranks.2 ⟨_, hthird⟩, fun hu => ?_⟩, ⟨⟨_, rfl⟩, _, hcs', ?_⟩⟩
  · unfold args
    cbv
  · exact hu.unbeaten (pairCandidate 1 .long .char) (by simp)
      (viable_iff_exists_ranks.2 ⟨_, hsecond⟩) ((better_iff hsecond hthird).1 (by decide))
  · unfold args
    cbv

end Hierarchy

end ConstructorCheck
