import ConstructorCheck.Fixture.Outcome
import Mathlib.Data.List.Perm.Basic
/-!
# Expected and found

An outcome compares two lists by taking partners out of a pool, which leaves the pool in another
order each time. What is left over only depends on how often each item is in either list.

* `swapRemove_perm` — taking out an entry takes out nothing else
* `count_unmatched` — how often an item is left over
* `unmatched_sublist` — what is left over keeps its order
* `Outcome.comparison_spec` — what is missing, what is unexpected, and when a fixture passes
-/

namespace ConstructorCheck

/-! ## The pool -/

theorem swapRemove_perm {α : Type} {l : List α} {i : Nat} (hi : i < l.length) :
    (l[i] :: swapRemove l i).Perm l := by
  have hne : l ≠ [] := List.ne_nil_of_length_pos (Nat.zero_lt_of_lt hi)
  have hlast : l.getLast? = some (l.getLast hne) := List.getLast?_eq_some_getLast hne
  have hset : (l.set i (l.getLast hne)).dropLast ++ [l.getLast hne] = l.set i (l.getLast hne) := by
    refine List.dropLast_append_getLast? _ ?_
    rw [List.getLast?_eq_getElem?, List.length_set, List.getElem?_set,
      ← List.getLast?_eq_getElem?, hlast]
    split
    · rfl
    · rfl
  have hconcat : ((l.set i (l.getLast hne)).dropLast ++ [l.getLast hne]).Perm
      (l.getLast hne :: l.eraseIdx i) := by
    rw [hset]
    exact List.set_perm_cons_eraseIdx hi _
  have hremove : (swapRemove l i).Perm (l.eraseIdx i) := by
    rw [swapRemove, hlast]
    exact ((List.perm_append_singleton _ _).symm.trans hconcat).cons_inv
  exact (hremove.cons _).trans (List.getElem_cons_eraseIdx_perm hi)

theorem takeMatch_eq_none_iff {pool : List Expectation} {x : Expectation} :
    takeMatch pool x = none ↔ x ∉ pool := by
  rw [takeMatch, Option.map_eq_none_iff, List.idxOf?_eq_none_iff]

theorem perm_of_takeMatch {pool rest : List Expectation} {x : Expectation}
    (hrest : takeMatch pool x = some rest) : (x :: rest).Perm pool := by
  obtain ⟨i, hi, rfl⟩ := Option.map_eq_some_iff.1 hrest
  obtain ⟨hlt, rfl, -⟩ := List.idxOf?_eq_some_iff.1 hi
  exact swapRemove_perm hlt

/-! ## What is left over -/

/-- **Each item is left over as often as it is wanted more often than the pool has it.** -/
theorem count_unmatched (pool ws : List Expectation) (v : Expectation) :
    (unmatched pool ws).count v = ws.count v - pool.count v := by
  -- on the wanted items, while partners leave the pool
  induction ws generalizing pool with
  | nil => rw [unmatched, List.count_nil, Nat.zero_sub]
  | cons w ws ih =>
    rw [unmatched]
    cases htake : takeMatch pool w with
    | some rest =>
      have hcount := (perm_of_takeMatch htake).count_eq v
      simp only
      rw [ih, ← hcount, List.count_cons, List.count_cons, Nat.add_sub_add_right]
    | none =>
      simp only
      rw [List.count_cons, List.count_cons, ih]
      by_cases hv : w = v
      · have hpool : pool.count v = 0 := by
          rw [← hv]
          exact List.count_eq_zero.2 (takeMatch_eq_none_iff.1 htake)
        rw [hpool, Nat.sub_zero, Nat.sub_zero]
      · simp [hv]

theorem unmatched_perm {pool pool' ws ws' : List Expectation} (hpool : pool.Perm pool')
    (hws : ws.Perm ws') : (unmatched pool ws).Perm (unmatched pool' ws') := by
  refine List.perm_iff_count.2 fun v => ?_
  rw [count_unmatched, count_unmatched, hpool.count_eq v, hws.count_eq v]

/-- **What is left over stands in the order of the wanted items.** -/
theorem unmatched_sublist (pool ws : List Expectation) : (unmatched pool ws).Sublist ws := by
  induction ws generalizing pool with
  | nil => exact List.Sublist.refl _
  | cons w ws ih =>
    rw [unmatched]
    cases takeMatch pool w with
    | some rest => exact (ih rest).cons w
    | none => exact (ih pool).cons_cons w

/-- Taking out the first entry moves the last one to the front; all others still find partners. -/
example :
    let a : Expectation := ⟨.noViableConstructor, 1⟩
    let b : Expectation := ⟨.noViableConstructor, 2⟩
    let c : Expectation := ⟨.noViableConstructor, 3⟩
    unmatched [a, b, a, c] [a, c, c, b, a, a] = [c, a] := by decide

/-- Nothing is left over when the pool has every item as often as it is wanted. -/
theorem unmatched_eq_nil_iff {pool ws : List Expectation} :
    unmatched pool ws = [] ↔ ∀ v, ws.count v ≤ pool.count v := by
  rw [List.eq_nil_iff_forall_not_mem]
  refine forall_congr' fun v => ?_
  rw [← List.count_eq_zero, count_unmatched, Nat.sub_eq_zero_iff_le]

/-! ## The outcome of a fixture -/

namespace Outcome

theorem passed_iff_perm (o : Outcome) : o.passed = true ↔ o.expected.Perm o.keys := by
  rw [passed, Bool.and_eq_true, List.isEmpty_iff, List.isEmpty_iff, missing, unexpected,
    unmatched_eq_nil_iff, unmatched_eq_nil_iff, List.perm_iff_count, ← forall_and]
  exact forall_congr' fun v => Nat.le_antisymm_iff.symm

/--
**How an outcome compares what was expected with what was reported.** A kind on a line is missing as
often as it was expected more often than reported, and unexpected as often as it was reported more
often than expected, whatever the order of the two lists. What is missing stands in the order of the
expectations, what is unexpected in the order of the report. So a fixture passes when the kinds and
lines of its report are the expectations in some order.
-/
theorem comparison_spec (o : Outcome) :
    let found : List Expectation := o.reported.map fun r => ⟨r.kind, r.line⟩
    (∀ v, o.missing.count v = o.expected.count v - found.count v ∧
      o.unexpected.count v = found.count v - o.expected.count v) ∧
    o.missing.Sublist o.expected ∧ o.unexpected.Sublist found ∧
    (o.passed = true ↔ o.expected.Perm found) :=
  ⟨fun v => ⟨count_unmatched o.keys o.expected v, count_unmatched o.expected o.keys v⟩,
    unmatched_sublist o.keys o.expected, unmatched_sublist o.expected o.keys, o.passed_iff_perm⟩

/--
The same expectations and two reports. In one of them a kind on a line is found twice that was
expected three times, and two others twice that were expected once; the other one is the
expectations in another order.
-/
theorem comparison_spec_duplicates :
    let a : Expectation := ⟨.noViableConstructor, 1⟩
    let b : Expectation := ⟨.ambiguousConstructor, 1⟩
    let c : Expectation := ⟨.noViableConstructor, 2⟩
    let outcome (found : List Expectation) : Outcome := {
      name := "pairs", description := "", source := ⟨"pairs.cpp", ['a', '\n', 'b']⟩
      expected := [a, b, a, c, a]
      reported := found.map fun x => ⟨x.kind, x.line, ⟨"pairs.cpp", 0, 1, "", .error, 4001, []⟩⟩ }
    let o := outcome [c, a, c, b, b, a]
    o.missing = [a] ∧ o.unexpected = [c, b] ∧ o.passed = false ∧
      (∀ v, o.missing.count v = [a, b, a, c, a].count v - [c, a, c, b, b, a].count v ∧
        o.unexpected.count v = [c, a, c, b, b, a].count v - [a, b, a, c, a].count v) ∧
      (outcome [a, c, a, b, a]).passed = true := by
  intro a b c outcome o
  refine ⟨by decide, by decide, by decide, (comparison_spec o).1, ?_⟩
  exact (comparison_spec (outcome [a, c, a, b, a])).2.2.2.2 (by decide)

end Outcome

end ConstructorCheck
