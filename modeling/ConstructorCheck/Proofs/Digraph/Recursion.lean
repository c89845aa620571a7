import ConstructorCheck.Digraph.Recursion
import ConstructorCheck.Proofs.Digraph.Depth
import ConstructorCheck.Proofs.Results
/-!
# Depth by recursion on a graph without cycles

Where the walk that gives up comes to a result, the recursion without a guard comes to the same, and
the one with a guard does too and never needs it. On a graph without cycles that is everywhere. So
both find the longest chains, from any depths that earlier calls have left behind.

* `climb_of_walk`, `descend_of_walk` — the two recursions beside the walk
* `exists_climbAll`, `exists_descendAll` — a call after any earlier calls

The sums that a recursion forms on the way are not greater than its result, so they have 32 bits if
the result has.
-/

namespace ConstructorCheck.Digraph

variable {α : Type} [DecidableEq α] {g : Digraph α} {path work : List α} {known : Depths α}

theorem checkedAdd?_eq {m n : Nat} (hle : m + n ≤ maxOffset) : checkedAdd? m n = some (m + n) :=
  if_pos hle

/-! ## Beside the walk -/

/-- **Where the walk comes to a result, the recursion without a guard ends with the same one.** -/
theorem climb_of_walk {r : Nat × Depths α} (hwalk : g.walk path known work = some r)
    (hr : r.1 ≤ maxOffset) : g.climb known work = some r := by
  fun_induction g.walk path known work generalizing r with
  | case1 path known =>
    rw [climb]
    exact hwalk
  | case2 path known a rest d hlookup ih =>
    obtain ⟨s, hs, rfl⟩ := Option.map_eq_some_iff.1 hwalk
    obtain ⟨hd, hm⟩ := Nat.max_le.1 hr
    rw [climb, hlookup]
    simp [checkedAdd?_eq hd, ih hs hm]
  | case3 => cases hwalk
  | case4 => cases hwalk
  | case5 path known a rest hlookup ha d known' hsome ih₁ ih₂ =>
    obtain ⟨s, hs, rfl⟩ := Option.map_eq_some_iff.1 hwalk
    obtain ⟨hd, hm⟩ := Nat.max_le.1 hr
    rw [climb, hlookup]
    simp [ih₁ hsome (Nat.le_of_succ_le hd), checkedAdd?_eq hd, ih₂ hs hm]

/-- **Where the walk comes to a result, the guard takes no effect.** -/
theorem descend_of_walk {r : Nat × Depths α} (hwalk : g.walk path known work = some r)
    (hr : r.1 ≤ maxOffset) : g.descend path known work = some (r.1, r.2, false) := by
  fun_induction g.walk path known work generalizing r with
  | case1 path known =>
    cases hwalk
    rw [descend]
  | case2 path known a rest d hlookup ih =>
    obtain ⟨s, hs, rfl⟩ := Option.map_eq_some_iff.1 hwalk
    obtain ⟨hd, hm⟩ := Nat.max_le.1 hr
    rw [descend, hlookup]
    simp [checkedAdd?_eq hd, ih hs hm]
  | case3 => cases hwalk
  | case4 => cases hwalk
  | case5 path known a rest hlookup ha d known' hsome ih₁ ih₂ =>
    obtain ⟨s, hs, rfl⟩ := Option.map_eq_some_iff.1 hwalk
    obtain ⟨hd, hm⟩ := Nat.max_le.1 hr
    rw [descend, hlookup]
    simp [ha, ih₁ hsome (Nat.le_of_succ_le hd), checkedAdd?_eq hd, ih₂ hs hm]

theorem climbFrom_of_depthFrom {a : α} {r : Nat × Depths α} (hfrom : g.depthFrom known a = some r)
    (hr : r.1 ≤ maxOffset) : g.climbFrom known a = some r := by
  unfold depthFrom at hfrom
  unfold climbFrom
  cases hlookup : known.lookup a with
  | some d => simpa [hlookup] using hfrom
  | none =>
    rw [hlookup] at hfrom
    obtain ⟨s, hs, rfl⟩ := Option.map_eq_some_iff.1 hfrom
    simp [climb_of_walk hs hr]

theorem descendFrom_of_depthFrom {a : α} {r : Nat × Depths α}
    (hfrom : g.depthFrom known a = some r) (hr : r.1 ≤ maxOffset) :
    g.descendFrom known a = some (r.1, r.2, false) := by
  unfold depthFrom at hfrom
  unfold descendFrom
  cases hlookup : known.lookup a with
  | some d =>
    rw [hlookup] at hfrom
    cases hfrom
    rfl
  | none =>
    rw [hlookup] at hfrom
    obtain ⟨s, hs, rfl⟩ := Option.map_eq_some_iff.1 hfrom
    simp [descend_of_walk hs hr]

/-! ## One call after the other -/

theorem KnownDepths.nil : g.KnownDepths [] := fun _ _ h => by cases h

section Acyclic

variable (hac : Acyclic g.Edge) (hle : ∀ n a b, Chain g.Edge n a b → n ≤ maxOffset)
include hac hle

theorem climbFrom_spec (hknown : g.KnownDepths known) (a : α) :
    ∃ d known', g.climbFrom known a = some (d, known') ∧
      IsDepth g.Edge d a ∧ g.KnownDepths known' := by
  obtain ⟨d, known', hfrom, hd, hknown'⟩ := depthFrom_spec hac hknown a
  obtain ⟨b, hb⟩ := hd.reached
  exact ⟨d, known', climbFrom_of_depthFrom hfrom (hle d a b hb), hd, hknown'⟩

theorem descendFrom_spec (hknown : g.KnownDepths known) (a : α) :
    ∃ d known', g.descendFrom known a = some (d, known', false) ∧
      IsDepth g.Edge d a ∧ g.KnownDepths known' := by
  obtain ⟨d, known', hfrom, hd, hknown'⟩ := depthFrom_spec hac hknown a
  obtain ⟨b, hb⟩ := hd.reached
  exact ⟨d, known', descendFrom_of_depthFrom hfrom (hle d a b hb), hd, hknown'⟩

/-- **After any calls, climbing from a node ends with its depth.** -/
theorem exists_climbAll (nodes : List α) {a : α} {d : Nat} (hd : IsDepth g.Edge d a) :
    ∃ known known', g.climbAll nodes = some known ∧ g.climbFrom known a = some (d, known') := by
  obtain ⟨known, hall, hknown⟩ : ∃ known, g.climbAll nodes = some known ∧ g.KnownDepths known := by
    refine exists_foldlM_of_forall (fun known b hknown => ?_) nodes .nil
    obtain ⟨e, known', hfrom, -, hknown'⟩ := climbFrom_spec hac hle hknown b
    exact ⟨known', by simp [hfrom], hknown'⟩
  obtain ⟨e, known', hfrom, he, -⟩ := climbFrom_spec hac hle hknown a
  cases he.unique hd
  exact ⟨known, known', hall, hfrom⟩

/-- **After any calls, descending from a node ends with its depth and does not need the guard.** -/
theorem exists_descendAll (nodes : List α) {a : α} {d : Nat} (hd : IsDepth g.Edge d a) :
    ∃ known known', g.descendAll nodes = some known ∧
      g.descendFrom known a = some (d, known', false) := by
  obtain ⟨known, hall, hknown⟩ :
      ∃ known, g.descendAll nodes = some known ∧ g.KnownDepths known := by
    refine exists_foldlM_of_forall (fun known b hknown => ?_) nodes .nil
    obtain ⟨e, known', hfrom, -, hknown'⟩ := descendFrom_spec hac hle hknown b
    exact ⟨known', by simp [hfrom], hknown'⟩
  obtain ⟨e, known', hfrom, he, -⟩ := descendFrom_spec hac hle hknown a
  cases he.unique hd
  exact ⟨known, known', hall, hfrom⟩

end Acyclic

end ConstructorCheck.Digraph
