import ConstructorCheck.Proofs.Overload.Ranking
import Mathlib.Data.List.Basic
/-!
# The best candidate

Resolution makes one pass that keeps the better of two candidates and one pass that lists what the
survivor does not beat. The question that it answers speaks of all pairs of candidates instead: is
there one that is better than every other.

* `survivor_eq_of_beats` — a candidate that beats all others survives the first pass
* `resolve_eq_resolved_iff` — the winner is the best candidate
* `exists_ambiguous_iff` — the call is ambiguous when there are viable candidates and no best one
* `resolve_spec` — all outcomes together, and their independence of the order of the candidates

The first pass is right because a candidate that beats all others is never replaced and replaces
whatever it meets. What the survivor is when there is no best one is the subject of
`ConstructorCheck.Proofs.Overload.Tied`.
-/

namespace ConstructorCheck

open ConversionRank (better better_asymm better_irrefl)

/-! ## The two passes -/

theorem survivor_mem (first : Ranked) (rest : List Ranked) :
    survivor first rest ∈ first :: rest := by
  induction rest generalizing first with
  | nil => exact List.mem_singleton.2 rfl
  | cons e rest ih =>
    unfold survivor
    rw [List.foldl_cons]
    split
    · exact List.mem_cons_of_mem _ (ih e)
    · rcases List.mem_cons.1 (ih first) with he | he
      · exact List.mem_cons.2 (Or.inl he)
      · exact List.mem_cons_of_mem _ (List.mem_cons_of_mem _ he)

/-- **An entry that beats all others survives.** -/
theorem survivor_eq_of_beats {w first : Ranked} {rest : List Ranked} (hw : w ∈ first :: rest)
    (hbeats : ∀ e ∈ (first :: rest).erase w, better w.ranks e.ranks = true) :
    survivor first rest = w := by
  induction rest generalizing first with
  | nil => exact (List.mem_singleton.1 hw).symm
  | cons e rest ih =>
    unfold survivor
    rw [List.foldl_cons]
    by_cases hfirst : first = w
    · -- the entry stands at the front and is not replaced
      subst hfirst
      rw [List.erase_cons_head] at hbeats
      rw [if_neg (by simp [better_asymm (hbeats e List.mem_cons_self)])]
      refine ih List.mem_cons_self fun d hd => hbeats d ?_
      rw [List.erase_cons_head] at hd
      exact List.mem_cons_of_mem _ hd
    · rw [List.erase_cons_tail (by simpa using hfirst)] at hbeats
      have hwf : better w.ranks first.ranks = true := hbeats first List.mem_cons_self
      have hmem : w ∈ e :: rest := (List.mem_cons.1 hw).resolve_left (Ne.symm hfirst)
      by_cases he : e = w
      · -- the entry is met now and replaces the one before
        subst he
        rw [if_pos hwf]
        refine ih List.mem_cons_self fun d hd => hbeats d (List.mem_cons_of_mem _ ?_)
        exact hd
      · have htail : w ∈ rest := (List.mem_cons.1 hmem).resolve_left (Ne.symm he)
        rw [List.erase_cons_tail (by simpa using he)] at hbeats
        split
        · refine ih (List.mem_cons_of_mem _ htail) fun d hd => hbeats d ?_
          rw [List.erase_cons_tail (by simpa using he)] at hd
          exact List.mem_cons_of_mem _ hd
        · refine ih (List.mem_cons_of_mem _ htail) fun d hd => ?_
          rw [List.erase_cons_tail (by simpa using hfirst)] at hd
          rcases List.mem_cons.1 hd with rfl | hd
          · exact hwf
          · exact hbeats d (List.mem_cons_of_mem _ (List.mem_cons_of_mem _ hd))

theorem mem_unbeatenBy_self {best : Ranked} {entries : List Ranked} (h : best ∈ entries) :
    best ∈ unbeatenBy best entries :=
  List.mem_filter.2 ⟨h, by simp [better_irrefl]⟩

/-- Only the entry itself is left unbeaten when it beats all others. -/
theorem length_unbeatenBy_eq_one_iff {best : Ranked} {entries : List Ranked}
    (h : best ∈ entries) :
    (unbeatenBy best entries).length = 1 ↔
      ∀ e ∈ entries.erase best, better best.ranks e.ranks = true := by
  have hperm := ((List.perm_cons_erase h).filter fun e => !better best.ranks e.ranks).length_eq
  rw [List.filter_cons_of_pos (by simp [better_irrefl]), List.length_cons] at hperm
  unfold unbeatenBy
  rw [hperm, Nat.add_eq_right, List.length_eq_zero_iff, List.filter_eq_nil_iff]
  simp

/-! ## Viable entries -/

namespace Hierarchy

variable {h : Hierarchy} {args : List TypeRef} {cs : List Candidate}

theorem mem_viable_iff {e : Ranked} :
    e ∈ h.viable args cs ↔ e.candidate ∈ cs ∧ h.ranks? args e.candidate = some e.ranks := by
  simp only [viable, List.mem_filterMap, Option.map_eq_some_iff]
  constructor
  · rintro ⟨c, hc, rs, hrs, rfl⟩
    exact ⟨hc, hrs⟩
  · rintro ⟨hc, hrs⟩
    exact ⟨e.candidate, hc, e.ranks, hrs, rfl⟩

theorem exists_mem_viable_iff :
    (∃ e, e ∈ h.viable args cs) ↔ ∃ c ∈ cs, h.Viable args c := by
  constructor
  · rintro ⟨e, he⟩
    have hm := mem_viable_iff.1 he
    exact ⟨e.candidate, hm.1, viable_iff_exists_ranks.2 ⟨e.ranks, hm.2⟩⟩
  · rintro ⟨c, hc, hv⟩
    obtain ⟨rs, hrs⟩ := viable_iff_exists_ranks.1 hv
    exact ⟨⟨c, rs⟩, mem_viable_iff.2 ⟨hc, hrs⟩⟩

/-- Taking a viable entry out takes one of its candidates out. -/
theorem viable_erase_perm {w : Ranked} (hw : w ∈ h.viable args cs) :
    ((h.viable args cs).erase w).Perm (h.viable args (cs.erase w.candidate)) := by
  obtain ⟨hmem, hrs⟩ := mem_viable_iff.1 hw
  have hperm : (h.viable args cs).Perm (w :: h.viable args (cs.erase w.candidate)) := by
    have hp := (List.perm_cons_erase hmem).filterMap fun c => (h.ranks? args c).map (Ranked.mk c)
    rwa [List.filterMap_cons_some (b := w) (by simp [hrs])] at hp
  simpa using hperm.erase w

/-- A candidate is best when its entry beats all other viable entries. -/
theorem isBest_iff {w : Ranked} (hrs : h.ranks? args w.candidate = some w.ranks) :
    h.IsBest args w.candidate cs ↔
      w ∈ h.viable args cs ∧
        ∀ e ∈ (h.viable args cs).erase w, better w.ranks e.ranks = true := by
  have hv : h.Viable args w.candidate := viable_iff_exists_ranks.2 ⟨_, hrs⟩
  constructor
  · intro hb
    have hw : w ∈ h.viable args cs := mem_viable_iff.2 ⟨hb.mem, hrs⟩
    refine ⟨hw, fun e he => ?_⟩
    obtain ⟨hd, hds⟩ := mem_viable_iff.1 ((viable_erase_perm hw).mem_iff.1 he)
    exact (better_iff hrs hds).2 (hb.beats _ hd (viable_iff_exists_ranks.2 ⟨_, hds⟩))
  · rintro ⟨hw, hbeats⟩
    refine ⟨(mem_viable_iff.1 hw).1, hv, fun d hd hdv => ?_⟩
    obtain ⟨ss, hss⟩ := viable_iff_exists_ranks.1 hdv
    refine (better_iff hrs hss).1 (hbeats ⟨d, ss⟩ ?_)
    exact (viable_erase_perm hw).mem_iff.2 (mem_viable_iff.2 ⟨hd, hss⟩)

/-- The order of the candidates plays no part in which one is best. -/
theorem IsBest.perm {c : Candidate} {ds : List Candidate} (hb : h.IsBest args c cs)
    (hp : cs.Perm ds) : h.IsBest args c ds :=
  ⟨hp.mem_iff.1 hb.mem, hb.viable, fun d hd => hb.beats d ((hp.erase c).mem_iff.2 hd)⟩

/-! ## Outcomes -/

theorem resolve_eq_noMatch_iff :
    h.resolve cs args = .noMatch ↔ ∀ c ∈ cs, ¬ h.Viable args c := by
  have hex : (∀ c ∈ cs, ¬ h.Viable args c) ↔ h.viable args cs = [] := by
    rw [List.eq_nil_iff_forall_not_mem, ← not_exists, exists_mem_viable_iff]
    simp
  rw [hex, resolve]
  cases h.viable args cs with
  | nil => simp
  | cons first rest =>
    simp only [reduceCtorEq, iff_false]
    split <;> simp

/-- **The winner of a call is the best candidate, with the rank of each argument.** -/
theorem resolve_eq_resolved_iff {w : Ranked} :
    h.resolve cs args = .resolved w ↔
      h.IsBest args w.candidate cs ∧ h.ranks? args w.candidate = some w.ranks := by
  constructor
  · intro hres
    unfold resolve at hres
    cases hV : h.viable args cs with
    | nil => simp [hV] at hres
    | cons first rest =>
      have hmem := survivor_mem first rest
      simp only [hV] at hres
      split at hres
      · next hlen =>
        cases hres
        have hbeats := (length_unbeatenBy_eq_one_iff hmem).1 hlen
        rw [← hV] at hmem hbeats
        have hrs := (mem_viable_iff.1 hmem).2
        exact ⟨(isBest_iff hrs).2 ⟨hmem, hbeats⟩, hrs⟩
      · cases hres
  · rintro ⟨hb, hrs⟩
    obtain ⟨hw, hbeats⟩ := (isBest_iff hrs).1 hb
    unfold resolve
    cases hV : h.viable args cs with
    | nil => simp [hV] at hw
    | cons first rest =>
      rw [hV] at hw hbeats
      have hs := survivor_eq_of_beats hw hbeats
      simp only [hs]
      rw [if_pos ((length_unbeatenBy_eq_one_iff hw).2 hbeats)]

theorem exists_resolved_iff :
    (∃ w, h.resolve cs args = .resolved w) ↔ ∃ c, h.IsBest args c cs := by
  constructor
  · rintro ⟨w, hw⟩
    exact ⟨w.candidate, (resolve_eq_resolved_iff.1 hw).1⟩
  · rintro ⟨c, hb⟩
    obtain ⟨rs, hrs⟩ := viable_iff_exists_ranks.1 hb.viable
    exact ⟨⟨c, rs⟩, resolve_eq_resolved_iff.2 ⟨hb, hrs⟩⟩

/-- A call is ambiguous when there is a viable candidate and no best one. -/
theorem exists_ambiguous_iff :
    (∃ tied, h.resolve cs args = .ambiguous tied) ↔
      (∃ c ∈ cs, h.Viable args c) ∧ ¬ ∃ c, h.IsBest args c cs := by
  have hno : (∃ c ∈ cs, h.Viable args c) ↔ h.resolve cs args ≠ .noMatch := by
    rw [ne_eq, resolve_eq_noMatch_iff]
    simp
  rw [hno, ← exists_resolved_iff]
  cases h.resolve cs args <;> simp

/-- Selecting entries by their ranks selects candidates, in the same order. -/
theorem map_filter_viable (p : List ConversionRank → Bool) :
    ((h.viable args cs).filter fun e => p e.ranks).map (·.candidate) =
      cs.filter fun c => (h.ranks? args c).any p := by
  induction cs with
  | nil => rfl
  | cons c cs ih =>
    simp only [viable, List.filterMap_cons] at ih ⊢
    cases hrs : h.ranks? args c with
    | none => simp [ih, hrs]
    | some rs => cases hp : p rs <;> simp [ih, hrs, hp]

/-- The tied candidates are those that the survivor does not beat, at least two. -/
theorem exists_survivor_of_ambiguous {tied : List ConstructorRef}
    (hres : h.resolve cs args = .ambiguous tied) :
    ∃ first rest, h.viable args cs = first :: rest ∧ 2 ≤ tied.length ∧
      tied = (cs.filter fun c => (h.ranks? args c).any fun rs =>
        !better (survivor first rest).ranks rs).map (·.constructor) := by
  unfold resolve at hres
  cases hV : h.viable args cs with
  | nil => simp [hV] at hres
  | cons first rest =>
    simp only [hV] at hres
    split at hres
    · cases hres
    · next hlen =>
      have htied := (Resolution.ambiguous.inj hres).symm
      refine ⟨first, rest, rfl, ?_, ?_⟩
      · have hpos := List.length_pos_of_mem (mem_unbeatenBy_self (survivor_mem first rest))
        rw [htied, List.length_map]
        omega
      · rw [htied, ← map_filter_viable fun rs => !better (survivor first rest).ranks rs,
          List.map_map, hV]
        rfl

/-- All of the tied candidates are viable. No undominated one is left out. -/
theorem exists_keep_of_ambiguous {tied : List ConstructorRef}
    (hres : h.resolve cs args = .ambiguous tied) :
    ∃ keep : Candidate → Bool, tied = (cs.filter keep).map (·.constructor) ∧ 2 ≤ tied.length ∧
      (∀ c ∈ cs, keep c = true → h.Viable args c) ∧
        ∀ c ∈ cs, h.Viable args c →
          (∀ d ∈ cs, h.Viable args d → ¬ h.Better args d c) → keep c = true := by
  obtain ⟨first, rest, hV, hlen, htied⟩ := exists_survivor_of_ambiguous hres
  refine ⟨_, htied, hlen, ?_, ?_⟩
  · intro c _ hkeep
    obtain ⟨rs, hrs, -⟩ := (Option.any_eq_true _ _).1 hkeep
    exact viable_iff_exists_ranks.2 ⟨rs, hrs⟩
  · intro c _ hv hundom
    obtain ⟨hmem, hrs⟩ := mem_viable_iff.1 (hV ▸ survivor_mem first rest)
    obtain ⟨ss, hss⟩ := viable_iff_exists_ranks.1 hv
    have hnot : ¬ better (survivor first rest).ranks ss = true := fun hb =>
      hundom _ hmem (viable_iff_exists_ranks.2 ⟨_, hrs⟩) ((better_iff hrs hss).1 hb)
    simpa [hss] using hnot

end Hierarchy

/-- The same kind of outcome, and the same winner if there is one. -/
def Resolution.Agrees : Resolution → Resolution → Prop
  | .resolved v, .resolved w => v = w
  | .ambiguous _, .ambiguous _ => True
  | .noMatch, .noMatch => True
  | _, _ => False

namespace Hierarchy

variable {h : Hierarchy} {args : List TypeRef} {cs : List Candidate}

/-- The order of the candidates plays no part in the outcome. -/
theorem resolve_agrees_of_perm {ds : List Candidate} (hp : cs.Perm ds) :
    (h.resolve cs args).Agrees (h.resolve ds args) := by
  cases hres : h.resolve cs args with
  | resolved w =>
    obtain ⟨hb, hrs⟩ := resolve_eq_resolved_iff.1 hres
    rw [resolve_eq_resolved_iff.2 ⟨hb.perm hp, hrs⟩]
    rfl
  | ambiguous tied =>
    obtain ⟨⟨c, hc, hv⟩, hno⟩ := exists_ambiguous_iff.1 ⟨tied, hres⟩
    have hno' : ¬ ∃ c, h.IsBest args c ds := fun ⟨d, hb⟩ => hno ⟨d, hb.perm hp.symm⟩
    obtain ⟨tied', ht⟩ := exists_ambiguous_iff.2 ⟨⟨c, hp.mem_iff.1 hc, hv⟩, hno'⟩
    rw [ht]
    trivial
  | noMatch =>
    have hnone := resolve_eq_noMatch_iff.1 hres
    rw [resolve_eq_noMatch_iff.2 fun c hc => hnone c (hp.mem_iff.2 hc)]
    trivial

variable (h args cs)

/--
**What a call chooses.** There is no match when no entry is viable. There is a winner when some
viable entry is better than every other one; the winner is that entry, with one rank for each
argument. Otherwise at least two viable entries are tied, among them all undominated ones.
The kind of outcome and the winner are the same for every order of the candidates.
-/
theorem resolve_spec :
    (h.resolve cs args = .noMatch ↔ ∀ c ∈ cs, ¬ h.Viable args c) ∧
    (∀ w, h.resolve cs args = .resolved w ↔
      h.IsBest args w.candidate cs ∧ w.ranks.length = args.length ∧
        ∀ i < args.length, w.ranks[i]? = h.rankAt args w.candidate i) ∧
    ((∃ w, h.resolve cs args = .resolved w) ↔ ∃ c, h.IsBest args c cs) ∧
    ((∃ tied, h.resolve cs args = .ambiguous tied) ↔
      (∃ c ∈ cs, h.Viable args c) ∧ ¬ ∃ c, h.IsBest args c cs) ∧
    (∀ tied, h.resolve cs args = .ambiguous tied →
      ∃ keep : Candidate → Bool, tied = (cs.filter keep).map (·.constructor) ∧ 2 ≤ tied.length ∧
        (∀ c ∈ cs, keep c = true → h.Viable args c) ∧
          ∀ c ∈ cs, h.Viable args c →
            (∀ d ∈ cs, h.Viable args d → ¬ h.Better args d c) → keep c = true) ∧
    ∀ ds, cs.Perm ds → (h.resolve cs args).Agrees (h.resolve ds args) := by
  refine ⟨resolve_eq_noMatch_iff, fun w => ?_, exists_resolved_iff, exists_ambiguous_iff,
    fun _ => exists_keep_of_ambiguous, fun _ => resolve_agrees_of_perm⟩
  rw [resolve_eq_resolved_iff]
  exact and_congr_right fun hb => ranks?_eq_some_iff_of_viable hb.viable

end Hierarchy

end ConstructorCheck
