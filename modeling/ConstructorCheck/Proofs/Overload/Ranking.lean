import ConstructorCheck.Overload.Resolution
import ConstructorCheck.Proofs.Results
/-!
# Ranking candidates

Overload resolution compares lists of ranks. Here the same comparison is said about the candidates
themselves, one argument at a time.

* `Viable` — a candidate takes that many arguments, and each of them converts to its parameter
* `Better` — a candidate is no worse at every argument and strictly better at one
* `IsBest` — an entry of a list is viable and better than every other viable entry

`ranks?_eq_some_iff` and `better_iff` lead from the lists of ranks to these relations.
-/

namespace ConstructorCheck

/-! ## Lists of ranks -/

namespace ConversionRank

/-- One list of ranks is better than another, position by position. -/
theorem better_eq_true_iff {a b : List ConversionRank} :
    better a b = true ↔
      (∀ (i : Nat) r s, a[i]? = some r → b[i]? = some s → r.cost ≤ s.cost) ∧
        ∃ (i : Nat) (r s : ConversionRank), a[i]? = some r ∧ b[i]? = some s ∧ r.cost < s.cost := by
  have hmem (r s : ConversionRank) :
      (r, s) ∈ a.zip b ↔ ∃ i : Nat, a[i]? = some r ∧ b[i]? = some s := by
    rw [List.mem_iff_getElem?]
    exact exists_congr fun i => List.getElem?_zip_eq_some
  simp only [better, Bool.and_eq_true, List.all_eq_true, List.any_eq_true, decide_eq_true_eq,
    Prod.forall, Prod.exists, hmem]
  constructor
  · rintro ⟨hall, r, s, ⟨i, hr, hs⟩, hlt⟩
    exact ⟨fun j r' s' hr' hs' => hall r' s' ⟨j, hr', hs'⟩, i, r, s, hr, hs, hlt⟩
  · rintro ⟨hall, i, r, s, hr, hs, hlt⟩
    exact ⟨fun r' s' ⟨j, hr', hs'⟩ => hall j r' s' hr' hs', r, s, ⟨i, hr, hs⟩, hlt⟩

/-- Of two lists of ranks at most one is better than the other. -/
theorem better_asymm {a b : List ConversionRank} (h : better a b = true) : better b a = false := by
  obtain ⟨-, i, r, s, hr, hs, hlt⟩ := better_eq_true_iff.1 h
  cases hba : better b a with
  | false => rfl
  | true =>
    have hle := (better_eq_true_iff.1 hba).1 i s r hs hr
    omega

theorem better_irrefl (a : List ConversionRank) : better a a = false := by
  cases h : better a a with
  | false => rfl
  | true => exact absurd (better_asymm h) (by simp [h])

/-- The list in the middle must have a rank wherever the others are compared. -/
theorem better_trans {a b c : List ConversionRank} (hlen : a.length = b.length)
    (hab : better a b = true) (hbc : better b c = true) : better a c = true := by
  obtain ⟨hle_ab, -⟩ := better_eq_true_iff.1 hab
  obtain ⟨hle_bc, j, s, t, hs, ht, hlt⟩ := better_eq_true_iff.1 hbc
  have hmid {i : Nat} {r : ConversionRank} (hr : a[i]? = some r) : ∃ s, b[i]? = some s :=
    ⟨_, List.getElem?_eq_getElem (hlen ▸ (List.getElem?_eq_some_iff.1 hr).1)⟩
  have hj : j < a.length := hlen ▸ (List.getElem?_eq_some_iff.1 hs).1
  refine better_eq_true_iff.2 ⟨fun i r u hr hu => ?_,
    j, a[j], t, List.getElem?_eq_getElem hj, ht, ?_⟩
  · obtain ⟨s, hs⟩ := hmid hr
    exact Nat.le_trans (hle_ab i r s hr hs) (hle_bc i s u hs hu)
  · exact Nat.lt_of_le_of_lt (hle_ab j _ s (List.getElem?_eq_getElem hj) hs) hlt

end ConversionRank

/-! ## Argument counts -/

theorem acceptsArity_eq_true_iff {ps : List Param} {n : Nat} :
    acceptsArity ps n = true ↔ requiredArity ps ≤ n ∧ n ≤ ps.length := by
  simp [acceptsArity]

theorem le_length_of_acceptsArity {ps : List Param} {n : Nat} (haccepts : acceptsArity ps n = true) :
    n ≤ ps.length := (acceptsArity_eq_true_iff.1 haccepts).2

theorem Candidate.isDefault_iff_acceptsArity {c : Candidate} :
    c.isDefault = true ↔ acceptsArity c.params 0 = true := by
  simp [isDefault, acceptsArity_eq_true_iff]

open ConversionRank (better)

/-! ## Candidates -/

namespace Hierarchy

variable (h : Hierarchy) (args : List TypeRef)

/-- The rank of argument number `i` for a candidate, if it converts to its parameter. -/
def rankAt (c : Candidate) (i : Nat) : Option ConversionRank :=
  match args[i]?, c.params[i]? with
  | some a, some p => h.conversionRank a p.type
  | _, _ => none

/-- A candidate that takes these arguments. -/
structure Viable (c : Candidate) : Prop where
  arity : acceptsArity c.params args.length = true
  converts : ∀ i < args.length, ∃ r, h.rankAt args c i = some r

/-- A candidate that fits the arguments better than another one. -/
structure Better (c d : Candidate) : Prop where
  no_worse : ∀ i r s, h.rankAt args c i = some r → h.rankAt args d i = some s → r.cost ≤ s.cost
  improves : ∃ i r s, h.rankAt args c i = some r ∧ h.rankAt args d i = some s ∧ r.cost < s.cost

/--
An entry of a list that is viable and better than every other viable entry. The other entries are
those that stay when it is taken out once, so an entry that stands in the list twice is not best.
-/
structure IsBest (c : Candidate) (cs : List Candidate) : Prop where
  mem : c ∈ cs
  viable : h.Viable args c
  beats : ∀ d ∈ cs.erase c, h.Viable args d → h.Better args c d

variable {h args}

theorem rankAt_eq_none {c : Candidate} {i : Nat} (hi : args.length ≤ i) :
    h.rankAt args c i = none := by
  unfold rankAt
  rw [List.getElem?_eq_none hi]

theorem lt_length_of_rankAt {c : Candidate} {i : Nat} {r : ConversionRank}
    (hr : h.rankAt args c i = some r) : i < args.length := by
  by_contra hi
  rw [rankAt_eq_none (Nat.le_of_not_lt hi)] at hr
  cases hr

theorem rankAt_eq_bind (c : Candidate) (i : Nat) :
    h.rankAt args c i =
      ((args.zip c.params)[i]?).bind fun p => h.conversionRank p.1 p.2.type := by
  unfold rankAt
  rw [List.zip, List.getElem?_zipWith]
  cases args[i]? <;> cases c.params[i]? <;> rfl

/-- A list of ranks that is found for a candidate holds the rank of each argument. -/
theorem ranks?_eq_some_iff {c : Candidate} {rs : List ConversionRank} :
    h.ranks? args c = some rs ↔ h.Viable args c ∧ ∀ i : Nat, rs[i]? = h.rankAt args c i := by
  unfold ranks?
  split
  · next harity =>
    rw [mapM_eq_some_iff]
    constructor
    · intro he
      have hrank (i : Nat) : rs[i]? = h.rankAt args c i := by
        have hi := congrArg (·[i]?) he
        simp only [List.getElem?_map] at hi
        rw [rankAt_eq_bind]
        cases hz : (args.zip c.params)[i]? with
        | none => simpa [hz] using hi.symm
        | some p => cases hr : rs[i]? <;> simp_all
      have hlen : args.length = rs.length := by
        have hz := congrArg List.length he
        have hle := le_length_of_acceptsArity harity
        simp only [List.length_map, List.length_zip] at hz
        omega
      refine ⟨⟨harity, fun i hi => ?_⟩, hrank⟩
      rw [← hrank i]
      exact ⟨rs[i], List.getElem?_eq_getElem (hlen ▸ hi)⟩
    · rintro ⟨hv, hrank⟩
      refine List.ext_getElem? fun i => ?_
      simp only [List.getElem?_map, hrank, rankAt_eq_bind]
      cases hz : (args.zip c.params)[i]? with
      | none => rfl
      | some p =>
        have hi : i < args.length :=
          (List.getElem?_eq_some_iff.1 (List.getElem?_zip_eq_some.1 hz).1).1
        obtain ⟨r, hr⟩ := hv.converts i hi
        rw [rankAt_eq_bind, hz, Option.bind_some] at hr
        simp [hr]
  · next harity =>
    have hv : ¬ h.Viable args c := fun hv => harity hv.arity
    simp [hv]

/-- Between two viable candidates, being better is the comparison of their lists of ranks. -/
theorem better_iff {c d : Candidate} {rs ss : List ConversionRank}
    (hc : h.ranks? args c = some rs) (hd : h.ranks? args d = some ss) :
    better rs ss = true ↔ h.Better args c d := by
  have hrs := (ranks?_eq_some_iff.1 hc).2
  have hss := (ranks?_eq_some_iff.1 hd).2
  simp only [ConversionRank.better_eq_true_iff, hrs, hss]
  exact ⟨fun hb => ⟨hb.1, hb.2⟩, fun hb => ⟨hb.no_worse, hb.improves⟩⟩

/-- There is exactly one rank for each argument. -/
theorem ranks?_eq_some_iff_of_viable {c : Candidate} {rs : List ConversionRank}
    (hv : h.Viable args c) :
    h.ranks? args c = some rs ↔
      rs.length = args.length ∧ ∀ i < args.length, rs[i]? = h.rankAt args c i := by
  rw [ranks?_eq_some_iff, and_iff_right hv]
  constructor
  · intro hrank
    refine ⟨?_, fun i _ => hrank i⟩
    rcases Nat.lt_trichotomy rs.length args.length with hlt | heq | hgt
    · obtain ⟨r, hr⟩ := hv.converts rs.length hlt
      rw [← hrank, List.getElem?_eq_none (Nat.le_refl _)] at hr
      cases hr
    · exact heq
    · have hnone := hrank args.length
      rw [rankAt_eq_none (Nat.le_refl _), List.getElem?_eq_getElem hgt] at hnone
      cases hnone
  · rintro ⟨hlen, hrank⟩ i
    by_cases hi : i < args.length
    · exact hrank i hi
    · rw [rankAt_eq_none (Nat.le_of_not_lt hi), List.getElem?_eq_none (by omega)]

theorem viable_iff_exists_ranks {c : Candidate} :
    h.Viable args c ↔ ∃ rs, h.ranks? args c = some rs := by
  constructor
  · intro hv
    refine ⟨(List.range args.length).map fun i => (h.rankAt args c i).getD .exact,
      ranks?_eq_some_iff.2 ⟨hv, fun i => ?_⟩⟩
    by_cases hi : i < args.length
    · obtain ⟨r, hr⟩ := hv.converts i hi
      simp [hi, hr]
    · rw [rankAt_eq_none (Nat.le_of_not_lt hi)]
      simpa using hi
  · rintro ⟨rs, hrs⟩
    exact (ranks?_eq_some_iff.1 hrs).1

end Hierarchy

end ConstructorCheck
