import ConstructorCheck.Proofs.Digraph.Depth
import ConstructorCheck.Proofs.Hierarchy.WellFormed
/-!
# Chains of bases

The direct bases of a reachable hierarchy make no cycle, and no chain of them is longer than
`maxDepth`. Both follow from one invariant, `Shallow`: a bound on all chains leaves no room for a
cycle, which could be walked any number of times.

* `isDerivedFrom_iff` — derivation is the existence of a chain of bases
* `exceedsDepth_eq_false_iff` — the depth above the base and the depth below the derived class
  together give the longest chain of the graph with the new edge
* `Reachable.shallow` — the invariant
* `addBase_spec` — which bases are accepted, and which error refuses the others

The depth of the new edge is measured before the edge is there. This is right because a chain uses
the new edge at most once, as no chain leads back.
-/

namespace ConstructorCheck.Hierarchy

variable {h h' : Hierarchy} {a b derived base : ClassId}

/-! ## The direct bases as a relation -/

/-- The class `a` lists `b` as a direct base. -/
def DirectBase (h : Hierarchy) (a b : ClassId) : Prop :=
  ∃ c, h.class? a = some c ∧ ∃ s ∈ c.bases, s.base = b

theorem directBase_iff_of_class? {c : ClassDecl} (hc : h.class? a = some c) :
    h.DirectBase a b ↔ ∃ s ∈ c.bases, s.base = b := by
  simp [DirectBase, hc]

/-- As long as no class lists a base, the relation is empty. -/
theorem not_directBase_of_bases_eq_nil (hbases : ∀ id c, h.class? id = some c → c.bases = [])
    (a b : ClassId) : ¬ h.DirectBase a b := by
  rintro ⟨c, hc, s, hs, -⟩
  rw [hbases a c hc] at hs
  cases hs

theorem baseGraph_edge_iff : (h.baseGraph fun _ => true).Edge a b ↔ h.DirectBase a b := by
  show b ∈ h.basesWhere _ a ↔ _
  unfold basesWhere
  rw [DirectBase]
  cases h.class? a <;> simp

/-- The graph of derived classes has the same edges, the other way round. -/
theorem derivedGraph_edge_iff (hw : h.WellFormed) : h.derivedGraph.Edge a b ↔ h.DirectBase b a := by
  show b ∈ h.derivedOf a ↔ _
  unfold derivedOf
  constructor
  · intro hb
    split at hb
    · obtain ⟨c, hc, rfl⟩ := List.mem_map.1 hb
      obtain ⟨hmem, hbase⟩ := List.mem_filter.1 hc
      obtain ⟨i, hi⟩ := List.mem_iff_getElem?.1 hmem
      have hclass : h.class? ⟨i⟩ = some c := hi
      rw [hw.class_id hclass]
      exact ⟨c, hclass, by simpa using hbase⟩
    · cases hb
  · rintro ⟨c, hc, s, hs, rfl⟩
    rw [if_pos (exists_class?_iff.1 (hw.base_declared hc s hs))]
    refine List.mem_map.2 ⟨c, List.mem_filter.2 ⟨?_, ?_⟩, hw.class_id hc⟩
    · exact List.mem_of_getElem? hc
    · exact List.any_eq_true.2 ⟨s, hs, decide_eq_true rfl⟩

theorem baseGraph_edge_eq : (h.baseGraph fun _ => true).Edge = h.DirectBase :=
  funext fun _ => funext fun _ => propext baseGraph_edge_iff

theorem derivedGraph_edge_eq (hw : h.WellFormed) : h.derivedGraph.Edge = flip h.DirectBase :=
  funext fun _ => funext fun _ => propext (derivedGraph_edge_iff hw)

/-- **A class derives from another when a chain of bases leads there.** -/
theorem isDerivedFrom_iff : h.isDerivedFrom a b = true ↔ ∃ n, Chain h.DirectBase (n + 1) a b := by
  unfold isDerivedFrom
  rw [Digraph.reaches_iff, baseGraph_edge_eq]

/-- Between different classes there is no chain without edges. -/
theorem isDerivedFrom_eq_false_iff (hne : a ≠ b) :
    h.isDerivedFrom a b = false ↔ ∀ n, ¬ Chain h.DirectBase n a b := by
  rw [← Bool.not_eq_true, isDerivedFrom_iff, not_exists]
  constructor
  · intro hno n hc
    cases n with
    | zero =>
      cases hc
      exact hne rfl
    | succ n => exact hno n hc
  · exact fun hno n => hno (n + 1)

/-! ## What declarations do to the relation -/

/-- Only the lists of bases count. -/
theorem directBase_congr
    (hbases : ∀ id, (h'.class? id).map (·.bases) = (h.class? id).map (·.bases)) :
    h'.DirectBase = h.DirectBase := by
  funext a b
  have hiff (g : Hierarchy) : g.DirectBase a b ↔
      ∃ l, (g.class? a).map (·.bases) = some l ∧ ∃ s ∈ l, s.base = b := by
    cases hc : g.class? a <;> simp [DirectBase, hc]
  rw [eq_iff_iff, hiff h', hiff h, hbases]

theorem directBase_withClass (name : String) (span : Span) :
    (h.withClass name span).DirectBase = h.DirectBase := by
  funext a b
  rw [eq_iff_iff, DirectBase, DirectBase, class?_withClass]
  split
  · next ha => simp [ha, class?_eq_none_iff.2 (Nat.le_refl _)]
  · rfl

theorem directBase_withBase {d : ClassDecl} {s : BaseSpecifier} (hd : h.class? derived = some d) :
    (h.withBase derived s).DirectBase =
      fun x y => h.DirectBase x y ∨ (x = derived ∧ y = s.base) := by
  funext x y
  rw [eq_iff_iff, DirectBase, class?_withBase]
  split
  · next hx =>
    subst hx
    rw [directBase_iff_of_class? hd, hd]
    simp [or_and_right, exists_or, eq_comm]
  · next hx => simp [hx, DirectBase]

/-! ## The depth of a new edge -/

/-- No chain of bases is longer than the limit. -/
def Shallow (h : Hierarchy) : Prop := ∀ n a b, Chain h.DirectBase n a b → n ≤ maxDepth

theorem Shallow.acyclic (hs : h.Shallow) : Acyclic h.DirectBase := acyclic_of_bounded hs

theorem Shallow.exists_depthAbove (hs : h.Shallow) (a : ClassId) :
    ∃ d, h.depthAbove a = some d ∧ IsDepth h.DirectBase d a := by
  obtain ⟨d, hd, hdepth⟩ := Digraph.exists_depth? (g := h.baseGraph fun _ => true)
    (by rw [baseGraph_edge_eq]; exact hs.acyclic) a
  rw [baseGraph_edge_eq] at hdepth
  exact ⟨d, hd, hdepth⟩

theorem Shallow.exists_depthBelow (hs : h.Shallow) (hw : h.WellFormed) (a : ClassId) :
    ∃ d, h.depthBelow a = some d ∧ IsDepth (flip h.DirectBase) d a := by
  obtain ⟨d, hd, hdepth⟩ := Digraph.exists_depth? (g := h.derivedGraph)
    (by rw [derivedGraph_edge_eq hw]; exact hs.acyclic.flip) a
  rw [derivedGraph_edge_eq hw] at hdepth
  exact ⟨d, hd, hdepth⟩

/--
**The depth test is exact.** It passes when the graph with the new edge is still shallow, wherever
its longest chain is.
-/
theorem exceedsDepth_eq_false_iff (hw : h.WellFormed) (hs : h.Shallow)
    (hback : ∀ n, ¬ Chain h.DirectBase n base derived) :
    h.exceedsDepth derived base = false ↔
      ∀ n a b, Chain (fun x y => h.DirectBase x y ∨ (x = derived ∧ y = base)) n a b →
        n ≤ maxDepth := by
  obtain ⟨above, habove, hup⟩ := hs.exists_depthAbove base
  obtain ⟨below, hbelow, hdown⟩ := hs.exists_depthBelow hw derived
  have hexceeds : h.exceedsDepth derived base = false ↔ above + 1 + below ≤ maxDepth := by
    rw [exceedsDepth, habove, hbelow]
    simp
  rw [hexceeds]
  constructor
  · intro hle n a b hc
    -- a chain over the new edge comes from below `derived` and goes on above `base`
    rcases hc.of_insert hback with hc | ⟨i, j, hi, hj, rfl⟩
    · exact hs n a b hc
    · have hi' := hdown.bound i a hi.reverse
      have hj' := hup.bound j b hj
      omega
  · intro hall
    obtain ⟨top, htop⟩ := hup.reached
    obtain ⟨bottom, hbottom⟩ := hdown.reached
    have hold (x y : ClassId) (hxy : h.DirectBase x y) :
        h.DirectBase x y ∨ (x = derived ∧ y = base) := Or.inl hxy
    -- the longest chains below and above meet at the new edge
    have hlong := hall _ _ _
      (((hbottom.reverse.mono hold).snoc (Or.inr ⟨rfl, rfl⟩)).append (htop.mono hold))
    omega

/-! ## The invariant -/

/-- An accepted declaration keeps a hierarchy shallow. -/
theorem Shallow.accepts {d : Declaration} {r : Declared} (hs : h.Shallow) (hw : h.WellFormed)
    (ha : h.Accepts d r h') : h'.Shallow := by
  cases ha with
  | newClass hname =>
    unfold Shallow
    rw [directBase_withClass]
    exact hs
  | implicitDefaultPoint hc =>
    unfold Shallow
    rw [directBase_congr fun _ => h.map_class?_withPoint _ (fun _ => rfl) _]
    exact hs
  | base hd hb hne hnew hback hdepth =>
    unfold Shallow
    rw [directBase_withBase hd]
    have hno := (isDerivedFrom_eq_false_iff hne.symm).1 hback
    exact (exceedsDepth_eq_false_iff hw hs hno).1 hdepth
  | member hc hnew htype =>
    unfold Shallow
    rw [directBase_congr fun _ => h.map_class?_withMember _ (fun _ => rfl) _]
    exact hs
  | constructor hc htypes htrail hnew =>
    unfold Shallow
    rw [directBase_congr fun _ => h.map_class?_withConstructor _ (fun _ => rfl) _]
    exact hs

theorem Shallow.empty : Hierarchy.empty.Shallow := by
  intro n a b hc
  cases hc with
  | nil => exact Nat.zero_le _
  | cons hab => obtain ⟨c, hc, -⟩ := hab; cases hc

theorem Reachable.shallow (hr : h.Reachable) : h.Shallow :=
  hr.induction .empty fun hr hs ha => hs.accepts hr.wellFormed ha

/-! ## Accepted and refused bases -/

/-- What it takes to make `base` a direct base of `derived`. -/
structure AllowsBase (h : Hierarchy) (derived base : ClassId) : Prop where
  derived_declared : ∃ d, h.class? derived = some d
  base_declared : ∃ b, h.class? base = some b
  ne : derived ≠ base
  not_direct : ¬ h.DirectBase derived base
  not_back : ∀ n, ¬ Chain h.DirectBase n base derived
  /-- The graph with the new edge has no chain beyond the limit anywhere. -/
  bounded : ∀ n a b, Chain (fun x y => h.DirectBase x y ∨ (x = derived ∧ y = base)) n a b →
    n ≤ maxDepth

/-- The error of the first condition that fails, in the order of `AllowsBase`. -/
inductive RefusesBase (h : Hierarchy) (derived base : ClassId) : HierarchyError → Prop where
  | unknownDerived (hd : h.class? derived = none) :
    RefusesBase h derived base (.lookup (.unknownClass derived))
  | unknownBase {d : ClassDecl} (hd : h.class? derived = some d) (hb : h.class? base = none) :
    RefusesBase h derived base (.lookup (.unknownClass base))
  | selfInheritance {d : ClassDecl} (hd : h.class? derived = some d) (heq : derived = base) :
    RefusesBase h derived base (.selfInheritance d.name)
  | duplicateBase {d b : ClassDecl} (hd : h.class? derived = some d) (hb : h.class? base = some b)
      (hne : derived ≠ base) (hdirect : h.DirectBase derived base) :
    RefusesBase h derived base (.duplicateBase d.name b.name)
  | circularInheritance {d b : ClassDecl} {n : Nat} (hd : h.class? derived = some d)
      (hb : h.class? base = some b) (hne : derived ≠ base) (hnew : ¬ h.DirectBase derived base)
      (hback : Chain h.DirectBase n base derived) :
    RefusesBase h derived base (.circularInheritance d.name b.name)
  | hierarchyTooDeep {d b : ClassDecl} {n : Nat} {x y : ClassId} (hd : h.class? derived = some d)
      (hb : h.class? base = some b) (hne : derived ≠ base) (hnew : ¬ h.DirectBase derived base)
      (hno : ∀ n, ¬ Chain h.DirectBase n base derived)
      (hlong : Chain (fun x y => h.DirectBase x y ∨ (x = derived ∧ y = base)) n x y)
      (hn : maxDepth < n) :
    RefusesBase h derived base (.hierarchyTooDeep d.name maxDepth)

/-- Nothing falls between the conditions and the errors. -/
theorem allowsBase_or_refusesBase (h : Hierarchy) (derived base : ClassId) :
    h.AllowsBase derived base ∨ ∃ e, h.RefusesBase derived base e := by
  cases hd : h.class? derived with
  | none => exact Or.inr ⟨_, .unknownDerived hd⟩
  | some d =>
    cases hb : h.class? base with
    | none => exact Or.inr ⟨_, .unknownBase hd hb⟩
    | some b =>
      by_cases hne : derived = base
      · exact Or.inr ⟨_, .selfInheritance hd hne⟩
      by_cases hdirect : h.DirectBase derived base
      · exact Or.inr ⟨_, .duplicateBase hd hb hne hdirect⟩
      by_cases hback : ∃ n, Chain h.DirectBase n base derived
      · obtain ⟨n, hc⟩ := hback
        exact Or.inr ⟨_, .circularInheritance hd hb hne hdirect hc⟩
      rw [not_exists] at hback
      by_cases hlong : ∃ n x y,
          Chain (fun x y => h.DirectBase x y ∨ (x = derived ∧ y = base)) n x y ∧ maxDepth < n
      · obtain ⟨n, x, y, hc, hn⟩ := hlong
        exact Or.inr ⟨_, .hierarchyTooDeep hd hb hne hdirect hback hc hn⟩
      · refine Or.inl ⟨⟨d, hd⟩, ⟨b, hb⟩, hne, hdirect, hback, fun n x y hc => ?_⟩
        exact Nat.le_of_not_lt fun hn => hlong ⟨n, x, y, hc, hn⟩

theorem addBase_eq_ok_of_allows (hw : h.WellFormed) (hs : h.Shallow) (access : Access)
    (span : Span) (ha : h.AllowsBase derived base) :
    h.addBase derived base access span = .ok (h.withBase derived ⟨base, access, span⟩) := by
  obtain ⟨d, hd⟩ := ha.derived_declared
  obtain ⟨b, hb⟩ := ha.base_declared
  refine addBase_eq_ok_iff.2 ⟨d, b, hd, hb, ha.ne, fun s hs hbase => ?_, ?_, ?_, rfl⟩
  · exact ha.not_direct ((directBase_iff_of_class? hd).2 ⟨s, hs, hbase⟩)
  · exact (isDerivedFrom_eq_false_iff ha.ne.symm).2 ha.not_back
  · exact (exceedsDepth_eq_false_iff hw hs ha.not_back).2 ha.bounded

theorem addBase_eq_error_of_refuses (hw : h.WellFormed) (hs : h.Shallow) (access : Access)
    (span : Span) {e : HierarchyError} (hr : h.RefusesBase derived base e) :
    h.addBase derived base access span = .error e := by
  have hclass {id : ClassId} {c : ClassDecl} (hc : h.class? id = some c) :
      h.declaredClass id = .ok c := declaredClass_eq_ok_iff.2 hc
  have hnone {id : ClassId} (hc : h.class? id = none) :
      h.declaredClass id = .error (.lookup (.unknownClass id)) := by rw [declaredClass, hc]
  -- the test for a base that is listed already
  have hlisted {d : ClassDecl} (hd : h.class? derived = some d) :
      (d.bases.any fun s => s.base = base) = true ↔ h.DirectBase derived base := by
    rw [directBase_iff_of_class? hd]
    simp
  unfold addBase
  cases hr with
  | unknownDerived hd => rw [hnone hd]; rfl
  | unknownBase hd hb => rw [hclass hd, hnone hb]; rfl
  | selfInheritance hd heq =>
    subst heq
    rw [hclass hd]
    exact if_pos rfl
  | duplicateBase hd hb hne hdirect =>
    rw [hclass hd, hclass hb]
    refine (if_neg hne).trans ?_
    rw [if_pos ((hlisted hd).2 hdirect)]
  | circularInheritance hd hb hne hnew hback =>
    rw [hclass hd, hclass hb]
    refine (if_neg hne).trans ?_
    have hderived : h.isDerivedFrom base derived = true := by
      rw [← Bool.not_eq_false, isDerivedFrom_eq_false_iff hne.symm]
      exact fun hno => hno _ hback
    rw [if_neg (mt (hlisted hd).1 hnew), if_pos hderived]
  | hierarchyTooDeep hd hb hne hnew hno hlong hn =>
    rw [hclass hd, hclass hb]
    refine (if_neg hne).trans ?_
    have hderived : h.isDerivedFrom base derived = false :=
      (isDerivedFrom_eq_false_iff hne.symm).2 hno
    have hdeep : h.exceedsDepth derived base = true := by
      rw [← Bool.not_eq_false, exceedsDepth_eq_false_iff hw hs hno]
      exact fun hall => Nat.not_lt.2 (hall _ _ _ hlong) hn
    rw [if_neg (mt (hlisted hd).1 hnew), if_neg (by simp [hderived]), if_pos hdeep]

/--
**The base relation of a reachable hierarchy, and what a new base does to it.** The relation has no
cycle and no chain beyond the limit. A base is accepted when all conditions of `AllowsBase` hold,
and otherwise refused because of the first one that fails.
-/
theorem addBase_spec (hr : h.Reachable) (derived base : ClassId) (access : Access) (span : Span) :
    Acyclic h.DirectBase ∧
    (∀ n a b, Chain h.DirectBase n a b → n ≤ maxDepth) ∧
    (∀ h', h.addBase derived base access span = .ok h' ↔
      h.AllowsBase derived base ∧ h' = h.withBase derived ⟨base, access, span⟩) ∧
    ∀ e, h.addBase derived base access span = .error e ↔ h.RefusesBase derived base e := by
  have hw := hr.wellFormed
  have hs := hr.shallow
  refine ⟨hs.acyclic, hs, fun h' => ?_, fun e => ?_⟩
  · constructor
    · intro hok
      rcases h.allowsBase_or_refusesBase derived base with ha | ⟨e, he⟩
      · rw [addBase_eq_ok_of_allows hw hs access span ha] at hok
        exact ⟨ha, (Except.ok.inj hok).symm⟩
      · rw [addBase_eq_error_of_refuses hw hs access span he] at hok
        cases hok
    · rintro ⟨ha, rfl⟩
      exact addBase_eq_ok_of_allows hw hs access span ha
  · constructor
    · intro herr
      rcases h.allowsBase_or_refusesBase derived base with ha | ⟨e', he⟩
      · rw [addBase_eq_ok_of_allows hw hs access span ha] at herr
        cases herr
      · rw [addBase_eq_error_of_refuses hw hs access span he] at herr
        cases herr
        exact he
    · exact addBase_eq_error_of_refuses hw hs access span

/-- Of two classes without bases, one can be made a base of the other, but not of itself. -/
theorem addBase_spec_two_classes :
    let h := Hierarchy.empty.run [.newClass "Base" .unknown, .newClass "Derived" .unknown]
    h.Reachable ∧
      h.addBase ⟨1⟩ ⟨0⟩ .publicAccess .unknown =
        .ok (h.withBase ⟨1⟩ ⟨⟨0⟩, .publicAccess, .unknown⟩) ∧
      h.addBase ⟨1⟩ ⟨1⟩ .publicAccess .unknown = .error (.selfInheritance "Derived") := by
  intro h
  have hr : h.Reachable := ⟨_, rfl⟩
  have hd : h.class? ⟨1⟩ = some ⟨⟨1⟩, "Derived", .unknown, .unknown, [], [], []⟩ := rfl
  have hbases : ∀ c ∈ h.classes, c.bases = [] := by decide
  have hno (a b : ClassId) : ¬ h.DirectBase a b := by
    rintro ⟨c, hc, s, hs, -⟩
    rw [hbases c (List.mem_of_getElem? hc)] at hs
    cases hs
  have hshort {n : Nat} {a b : ClassId} (hc : Chain h.DirectBase n a b) : n = 0 ∧ a = b := by
    cases hc with
    | nil => exact ⟨rfl, rfl⟩
    | cons hab => exact absurd hab (hno _ _)
  have hback (n : Nat) : ¬ Chain h.DirectBase n ⟨0⟩ ⟨1⟩ := fun hc => by cases (hshort hc).2
  have hallows : h.AllowsBase ⟨1⟩ ⟨0⟩ := by
    refine ⟨⟨_, rfl⟩, ⟨_, rfl⟩, by decide, hno _ _, hback, fun n a b hc => ?_⟩
    rcases hc.of_insert hback with hc | ⟨i, j, hi, hj, rfl⟩
    · have := (hshort hc).1
      omega
    · rw [(hshort hi).1, (hshort hj).1]
      decide
  exact ⟨hr, ((addBase_spec hr ⟨1⟩ ⟨0⟩ .publicAccess .unknown).2.2.1 _).2 ⟨hallows, rfl⟩,
    ((addBase_spec hr ⟨1⟩ ⟨1⟩ .publicAccess .unknown).2.2.2 _).2 (.selfInheritance hd rfl)⟩

end ConstructorCheck.Hierarchy
