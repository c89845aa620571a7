import Mathlib
import ConstructorCheck.Hierarchy.Depth
import ConstructorCheck.Proofs.Digraph.Recursion
import ConstructorCheck.Proofs.Hierarchy.BaseChains
import ConstructorCheck.Proofs.Hierarchy.Consistent
/-!
# Measured depths

The depths above and below a class of a reachable hierarchy are the lengths of the longest chains,
in whatever way they are measured: by the walk that gives up on a cycle, by a recursion that would
not end on one, and by a recursion along the table of derived classes that would cut it short.

* `derivedTable_edge_iff` — the table of derived classes against the lists of bases
* `checkedDepth?_eq` — the depth of a new edge with numbers of 32 bits
* `depths_spec` — all of it
-/

namespace ConstructorCheck.Hierarchy

variable {h : Hierarchy} {a b derived base : ClassId} {above below : Nat}

/-! ## The two graphs -/

/-- The table of derived classes has the edges of the lists of bases, the other way round. -/
theorem derivedTable_edge_iff (hw : h.WellFormed) :
    h.derivedTable.Edge a b ↔ h.DirectBase b a := by
  show b ∈ (h.derivedEdges.filter fun e => e.1 = a).map (·.2) ↔ _
  simp only [derivedEdges, List.mem_map, List.mem_filter, List.mem_flatMap, decide_eq_true_eq]
  constructor
  · rintro ⟨-, ⟨⟨c, hc, s, hs, rfl⟩, rfl⟩, rfl⟩
    exact ⟨c, hw.mem_classes_iff.1 hc, s, hs, rfl⟩
  · rintro ⟨c, hc, s, hs, rfl⟩
    exact ⟨(s.base, c.id), ⟨⟨c, List.mem_of_getElem? hc, s, hs, rfl⟩, rfl⟩, hw.class_id hc⟩

theorem derivedTable_edge_eq (hw : h.WellFormed) : h.derivedTable.Edge = flip h.DirectBase :=
  funext fun _ => funext fun _ => propext (derivedTable_edge_iff hw)

theorem maxDepth_le_maxOffset : maxDepth ≤ maxOffset := by decide

/-! ## The recursions -/

/-- After any calls on the same hierarchy, climbing from a class ends with its depth. -/
theorem Shallow.climbs (hs : h.Shallow) (ha : IsDepth h.DirectBase above a)
    (earlier : List ClassId) :
    ∃ known known', (h.baseGraph fun _ => true).climbAll earlier = some known ∧
      (h.baseGraph fun _ => true).climbFrom known a = some (above, known') := by
  refine Digraph.exists_climbAll ?_ ?_ earlier ?_ <;> rw [baseGraph_edge_eq]
  · exact hs.acyclic
  · exact fun n x y hc => (hs n x y hc).trans maxDepth_le_maxOffset
  · exact ha

/-- So does descending, and the guard takes no effect. -/
theorem Shallow.descends (hs : h.Shallow) (hw : h.WellFormed)
    (ha : IsDepth (flip h.DirectBase) below a) (earlier : List ClassId) :
    ∃ known known', h.derivedTable.descendAll earlier = some known ∧
      h.derivedTable.descendFrom known a = some (below, known', false) := by
  refine Digraph.exists_descendAll ?_ ?_ earlier ?_ <;> rw [derivedTable_edge_eq hw]
  · exact hs.acyclic.flip
  · exact fun n x y hc => (hs n y x hc.reverse).trans maxDepth_le_maxOffset
  · exact ha

/-- **The depth of a new edge fits into 32 bits**, and so does each sum on the way to it. -/
theorem checkedDepth?_eq (hs : h.Shallow) (hw : h.WellFormed)
    (habove : IsDepth h.DirectBase above base) (hbelow : IsDepth (flip h.DirectBase) below derived)
    (hle : above + 1 + below ≤ maxOffset) :
    h.checkedDepth? derived base = some (above + 1 + below) := by
  obtain ⟨known, up, hall, hup⟩ := hs.climbs habove []
  cases hall
  obtain ⟨known, down, hall, hdown⟩ := hs.descends hw hbelow []
  cases hall
  rw [checkedDepth?, hup, Option.bind_eq_bind, Option.bind_some, hdown]
  simp [Digraph.checkedAdd?_eq hle, Digraph.checkedAdd?_eq (Nat.le_of_add_right_le hle)]

/-! ## The depths of a class -/

/-- The longest chains above and below a class, and every way in which they are measured. -/
structure HasDepths (h : Hierarchy) (id : ClassId) (above below : Nat) : Prop where
  above_isDepth : IsDepth h.DirectBase above id
  below_isDepth : IsDepth (flip h.DirectBase) below id
  above_le : above ≤ maxDepth
  below_le : below ≤ maxDepth
  depthAbove_eq : h.depthAbove id = some above
  depthBelow_eq : h.depthBelow id = some below
  /-- The recursion ends, with any depths that earlier calls have found. -/
  climbs : ∀ earlier, ∃ known known', (h.baseGraph fun _ => true).climbAll earlier = some known ∧
    (h.baseGraph fun _ => true).climbFrom known id = some (above, known')
  /-- No class is met again on the way. -/
  descends : ∀ earlier, ∃ known known', h.derivedTable.descendAll earlier = some known ∧
    h.derivedTable.descendFrom known id = some (below, known', false)

theorem Shallow.exists_hasDepths (hs : h.Shallow) (hw : h.WellFormed) (id : ClassId) :
    ∃ above below, h.HasDepths id above below := by
  obtain ⟨above, habove, hup⟩ := hs.exists_depthAbove id
  obtain ⟨below, hbelow, hdown⟩ := hs.exists_depthBelow hw id
  obtain ⟨top, htop⟩ := hup.reached
  obtain ⟨bottom, hbottom⟩ := hdown.reached
  exact ⟨above, below, {
    above_isDepth := hup
    below_isDepth := hdown
    above_le := hs above id top htop
    below_le := hs below bottom id hbottom.reverse
    depthAbove_eq := habove
    depthBelow_eq := hbelow
    climbs := hs.climbs hup
    descends := hs.descends hw hdown }⟩

/--
**The depths of a reachable hierarchy.** For each class the longest chains above and below it are
found, and they are within the limit. For each two classes the depth of a new edge between them is
found without an overflow, and it is what the depth test compares with the limit.
-/
theorem depths_spec (hr : h.Reachable) :
    (∀ id, ∃ above below, h.HasDepths id above below) ∧
    ∀ derived base, ∃ above below, IsDepth h.DirectBase above base ∧
      IsDepth (flip h.DirectBase) below derived ∧
      h.checkedDepth? derived base = some (above + 1 + below) ∧
      h.exceedsDepth derived base = decide (maxDepth < above + 1 + below) := by
  have hdepths := hr.shallow.exists_hasDepths hr.wellFormed
  refine ⟨hdepths, fun derived base => ?_⟩
  obtain ⟨above, _, hbase⟩ := hdepths base
  obtain ⟨_, below, hderived⟩ := hdepths derived
  have hle : above + 1 + below ≤ maxOffset := by
    have habove := hbase.above_le
    have hbelow := hderived.below_le
    unfold maxDepth at habove hbelow
    unfold maxOffset
    omega
  refine ⟨above, below, hbase.above_isDepth, hderived.below_isDepth, ?_, ?_⟩
  · exact checkedDepth?_eq hr.shallow hr.wellFormed hbase.above_isDepth hderived.below_isDepth hle
  · rw [exceedsDepth, hbase.depthAbove_eq, hderived.depthBelow_eq]

/-- A class with two bases, one of them above the other, and a class apart. -/
theorem depths_spec_two_ways_up :
    let h := Hierarchy.empty.run [.newClass "Top" .unknown, .newClass "Middle" .unknown,
      .newClass "Low" .unknown, .newClass "Bottom" .unknown, .newClass "Apart" .unknown,
      .base ⟨3⟩ ⟨0⟩ .publicAccess .unknown, .base ⟨3⟩ ⟨2⟩ .publicAccess .unknown,
      .base ⟨2⟩ ⟨1⟩ .publicAccess .unknown, .base ⟨1⟩ ⟨0⟩ .publicAccess .unknown]
    h.Reachable ∧ h.HasDepths ⟨2⟩ 2 1 ∧ h.HasDepths ⟨0⟩ 0 3 ∧
      h.checkedDepth? ⟨0⟩ ⟨4⟩ = some 4 := by
  intro h
  have hr : h.Reachable := ⟨_, rfl⟩
  have hdepths {id : ClassId} {above below : Nat} (habove : h.depthAbove id = some above)
      (hbelow : h.depthBelow id = some below) : h.HasDepths id above below := by
    obtain ⟨a, b, hid⟩ := (depths_spec hr).1 id
    cases hid.depthAbove_eq.symm.trans habove
    cases hid.depthBelow_eq.symm.trans hbelow
    exact hid
  have hvalues : h.depthAbove ⟨2⟩ = some 2 ∧ h.depthBelow ⟨2⟩ = some 1 ∧
      h.depthAbove ⟨0⟩ = some 0 ∧ h.depthBelow ⟨0⟩ = some 3 ∧
      h.depthAbove ⟨4⟩ = some 0 ∧ h.depthBelow ⟨4⟩ = some 0 := by
    unfold h
    cbv
  obtain ⟨hlowAbove, hlowBelow, htopAbove, htopBelow, hapartAbove, hapartBelow⟩ := hvalues
  have htop := hdepths htopAbove htopBelow
  have hapart := hdepths hapartAbove hapartBelow
  obtain ⟨above, below, habove, hbelow, hdepth, -⟩ := (depths_spec hr).2 ⟨0⟩ ⟨4⟩
  cases habove.unique hapart.above_isDepth
  cases hbelow.unique htop.below_isDepth
  exact ⟨hr, hdepths hlowAbove hlowBelow, htop, hdepth⟩

end ConstructorCheck.Hierarchy
