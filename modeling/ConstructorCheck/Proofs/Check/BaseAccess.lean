import Mathlib
import ConstructorCheck.Proofs.Check.Verdict
import ConstructorCheck.Proofs.Hierarchy.BaseChains
/-!
# Access through a base initializer

A constructor that constructs a base of its class may call every public and protected constructor
of the base, and no private one. The access of the inheritance plays no part in this.

* `isAccessible_iff_of_directBase` — what a class may use of its direct bases
* `checkSite_base_spec` — what this means for the verdict on a base site

A derived class may use protected constructors because its chain of bases leads to the direct base;
it may not use private ones because no class is its own base.
-/

namespace ConstructorCheck.Hierarchy

variable {h : Hierarchy} {s : Site} {t id : ClassId} {cs : List Candidate} {c : Candidate}

/-- The target of a base site is a direct base of its context. -/
theorem directBase_of_targetOf (hs : s.subject = .base id) (ht : h.targetOf s = .ok t) :
    h.DirectBase s.context t := by
  obtain ⟨context, hcontext, ht⟩ := bind_eq_ok_iff.1 ht
  rw [mapError_eq_ok_iff, getClass_eq_ok_iff] at hcontext
  rw [hs] at ht
  dsimp only at ht
  split at ht
  · next hany =>
    cases ht
    exact ⟨context, hcontext, by simpa using hany⟩
  · cases ht

theorem ne_of_directBase (hw : h.WellFormed) {derived base : ClassId}
    (hbase : h.DirectBase derived base) : derived ≠ base := by
  obtain ⟨c, hc, b, hb, rfl⟩ := hbase
  exact (hw.base_ne hc b hb).symm

/-- **A class may use what its direct base does not keep private.** -/
theorem isAccessible_iff_of_directBase (hw : h.WellFormed) {derived base : ClassId}
    (hbase : h.DirectBase derived base) (access : Access) :
    h.isAccessible access base derived = true ↔ access ≠ .privateAccess := by
  have hne := ne_of_directBase hw hbase
  have hderived : h.isDerivedFrom derived base = true := isDerivedFrom_iff.2 ⟨0, .single hbase⟩
  cases access with
  | publicAccess => simp [isAccessible]
  | protectedAccess => simp [isAccessible, hderived]
  | privateAccess => simp [isAccessible, hne]

/-- The candidates of a class are declared by it. -/
theorem declaring_of_mem_candidatesOf (hw : h.WellFormed) (hcs : h.candidatesOf t = .ok cs)
    (hc : c ∈ cs) : c.declaring = t := by
  cases (mem_candidatesOf_iff hw hcs).1 hc with
  | declared => rfl
  | implicit => rfl

theorem isAccessible_iff_of_mem_candidatesOf (hw : h.WellFormed) (hs : s.subject = .base id)
    (ht : h.targetOf s = .ok t) (hcs : h.candidatesOf t = .ok cs) (hc : c ∈ cs) :
    h.isAccessible c.access c.declaring s.context = true ↔ c.access ≠ .privateAccess := by
  rw [declaring_of_mem_candidatesOf hw hcs hc]
  exact isAccessible_iff_of_directBase hw (directBase_of_targetOf hs ht) c.access

/--
**A base initializer may call what is not private.** Of the candidates at a base site exactly the
private ones are inaccessible, however the base is inherited. So a constructor that is reported as
inaccessible is private, and a constructor that resolution picks is reported when it is private and
in order otherwise.
-/
theorem checkSite_base_spec (hr : h.Reachable) (hs : s.subject = .base id)
    (ht : h.targetOf s = .ok t) :
    (∀ x, h.checkSite s = .ok (some x) → x.kind = .inaccessibleConstructor →
      x.access? = some .privateAccess) ∧
    (∀ cs w, h.gather s = .ok (.candidates t cs) → h.resolve cs s.arguments = .resolved w →
      (w.candidate.access = .privateAccess →
        h.checkSite s = .ok (some (.inaccessible s w.candidate))) ∧
      (w.candidate.access ≠ .privateAccess → h.checkSite s = .ok none)) ∧
    ∀ cs, h.candidatesOf t = .ok cs → ∀ c ∈ cs,
      (h.isAccessible c.access c.declaring s.context = true ↔ c.access ≠ .privateAccess) := by
  have hw := hr.wellFormed
  have haccess {cs : List Candidate} {c : Candidate} (hcs : h.candidatesOf t = .ok cs)
      (hc : c ∈ cs) := isAccessible_iff_of_mem_candidatesOf hw hs ht hcs hc
  refine ⟨fun x hx hkind => ?_, fun cs w hg hres => ?_, fun cs hcs c hc => haccess hcs hc⟩
  · obtain ⟨d, hd⟩ := targetOf_declared hw ht
    obtain ⟨cs, hcs⟩ := exists_candidatesOf hd
    obtain ⟨v, hv, hverdict⟩ := exists_verdict ht hcs
    rw [hx] at hv
    cases hv
    obtain ⟨c, hbest, hdenied⟩ := hverdict.kind_eq_inaccessible_iff.1 (congrArg some hkind)
    have hprivate : c.access = .privateAccess := by
      by_contra hne
      rw [(haccess hcs hbest.mem).2 hne] at hdenied
      cases hdenied
    have hfinding := hverdict.eq_inaccessible hbest hdenied
    cases hfinding
    exact congrArg some hprivate
  · have hmem := (resolve_eq_resolved_iff.1 hres).1.mem
    have hiff := haccess (of_gather_eq_candidates hg).2 hmem
    rw [checkSite_of_resolved hg hres, accessFinding]
    refine ⟨fun hprivate => ?_, fun hne => ?_⟩
    · rw [if_neg fun hok => hiff.1 hok hprivate]
    · rw [if_pos (hiff.2 hne)]

/-- A privately inherited base with a protected constructor and a private one. -/
theorem checkSite_base_spec_private_base :
    let h := Hierarchy.empty.run [.newClass "Base" .unknown, .newClass "Derived" .unknown,
      .base ⟨1⟩ ⟨0⟩ .privateAccess .unknown, .constructor ⟨0⟩ [] .protectedAccess .unknown,
      .constructor ⟨0⟩ [⟨.primitive .int, false⟩] .privateAccess .unknown]
    let s (arguments? : Option (List TypeRef)) : Site :=
      ⟨⟨1⟩, .base ⟨0⟩, arguments?, .unknown⟩
    let k : Candidate := ⟨.declared ⟨1⟩, ⟨0⟩, .privateAccess, [⟨.primitive .int, false⟩]⟩
    h.Reachable ∧ (∀ arguments?, h.targetOf (s arguments?) = .ok ⟨0⟩) ∧
      h.checkSite (s none) = .ok none ∧
      h.checkSite (s (some [.primitive .int])) =
        .ok (some (.inaccessible (s (some [.primitive .int])) k)) := by
  intro h s k
  have hr : h.Reachable := ⟨_, rfl⟩
  have hh : h = ⟨[⟨⟨0⟩, "Base", .unknown, .unknown, [], [], [⟨0⟩, ⟨1⟩]⟩,
      ⟨⟨1⟩, "Derived", .unknown, .unknown, [⟨⟨0⟩, .privateAccess, .unknown⟩], [], []⟩], [],
      [⟨⟨0⟩, ⟨0⟩, [], .protectedAccess, .unknown⟩,
        ⟨⟨1⟩, ⟨0⟩, [⟨.primitive .int, false⟩], .privateAccess, .unknown⟩],
      [("Derived", ⟨1⟩), ("Base", ⟨0⟩)]⟩ := by
    unfold h
    cbv
  have ht (arguments? : Option (List TypeRef)) : h.targetOf (s arguments?) = .ok ⟨0⟩ := by
    rw [hh]
    rfl
  rw [hh] at hr ht ⊢
  have hspec (arguments? : Option (List TypeRef)) :=
    (checkSite_base_spec hr rfl (ht arguments?)).2.1
  refine ⟨hr, ht, ?_, ?_⟩
  · exact (hspec none _ ⟨⟨.declared ⟨0⟩, ⟨0⟩, .protectedAccess, []⟩, []⟩ rfl rfl).2 (by decide)
  · exact (hspec (some [.primitive .int]) _ ⟨k, [.exact]⟩ rfl rfl).1 rfl

end ConstructorCheck.Hierarchy
