import ConstructorCheck.Check.Verdict
import ConstructorCheck.Proofs.Hierarchy.WellFormed
import ConstructorCheck.Proofs.Overload.Best
/-!
# What a verdict means

A verdict comes about in four stages: the target of the site, its candidates, overload resolution
and access. Here it is said in terms of the candidates alone.

* `mem_candidatesOf_iff` — the candidates of a class, read off the constructor table
* `exists_verdict` — every site with a target gets one of five verdicts
* `checkSite_spec` — when it gets which one, and when checking fails

Gathering asks for a candidate that takes no arguments before resolution looks at viability. The
two agree (`isDefault_iff_viable`), so at an implicit site resolution always finds a match.
-/

namespace ConstructorCheck.Hierarchy

variable {h : Hierarchy} {s : Site} {t : ClassId} {cs : List Candidate}

/-! ## The target -/

/-- The target of a site is a declared class. -/
theorem targetOf_declared (hw : h.WellFormed) (ht : h.targetOf s = .ok t) :
    ∃ c, h.class? t = some c := by
  obtain ⟨context, hcontext, ht⟩ := bind_eq_ok_iff.1 ht
  rw [mapError_eq_ok_iff, getClass_eq_ok_iff] at hcontext
  split at ht
  · next id =>
    split at ht
    · next hany =>
      obtain ⟨b, hb, hbase⟩ := List.any_eq_true.1 hany
      cases ht
      rw [← of_decide_eq_true hbase]
      exact hw.base_declared hcontext b hb
    · cases ht
  · next id =>
    obtain ⟨m, hm, ht⟩ := bind_eq_ok_iff.1 ht
    rw [mapError_eq_ok_iff, getMember_eq_ok_iff] at hm
    split at ht
    · cases ht
    · split at ht
      · next target htype =>
        cases ht
        have hknown := hw.member_type hm
        cases hm' : m.type with
        | primitive p => rw [hm'] at htype; cases htype
        | ofClass id =>
          rw [hm'] at htype hknown
          cases htype
          exact knowsType_ofClass_iff.1 hknown
      · cases ht

/-! ## The candidates -/

/-- A declared constructor of the class, or the implicit one of a class that declares none. -/
inductive IsCandidate (h : Hierarchy) (t : ClassId) : Candidate → Prop where
  | declared {k : ConstructorDecl} (hk : h.constructor? k.id = some k) (howner : k.owner = t) :
    IsCandidate h t ⟨.declared k.id, t, k.access, k.params⟩
  | implicit (hnone : ∀ id k, h.constructor? id = some k → k.owner ≠ t) :
    IsCandidate h t ⟨.implicit t, t, .publicAccess, []⟩

theorem mem_constructorsOf_iff (hw : h.WellFormed) {c : ClassDecl} (hc : h.class? t = some c)
    {k : ConstructorDecl} :
    k ∈ h.constructorsOf c ↔ h.constructor? k.id = some k ∧ k.owner = t :=
  hw.owned_constructors.mem_filterMap_iff (by rw [hc]; rfl)

theorem exists_candidatesOf {c : ClassDecl} (hc : h.class? t = some c) :
    ∃ cs, h.candidatesOf t = .ok cs := by
  rw [candidatesOf, ownConstructors, getClass_eq_ok_iff.2 hc]
  exact ⟨_, rfl⟩

/-- **The candidates of a class are its constructors.** -/
theorem mem_candidatesOf_iff (hw : h.WellFormed) (hcs : h.candidatesOf t = .ok cs)
    {c : Candidate} : c ∈ cs ↔ h.IsCandidate t c := by
  obtain ⟨ks, hks, rfl⟩ := map_eq_ok_iff.1 hcs
  obtain ⟨d, hd, rfl⟩ := map_eq_ok_iff.1 hks
  rw [getClass_eq_ok_iff] at hd
  have hmem {k : ConstructorDecl} := mem_constructorsOf_iff hw hd (k := k)
  split
  · next hempty =>
    rw [List.isEmpty_iff] at hempty
    have hnone (id : ConstructorId) (k : ConstructorDecl) (hk : h.constructor? id = some k) :
        k.owner ≠ t := by
      intro howner
      have hid : k.id = id := hw.owned_constructors.id_eq hk
      have hin := hmem.2 ⟨hid ▸ hk, howner⟩
      rw [hempty] at hin
      cases hin
    rw [List.mem_singleton]
    constructor
    · rintro rfl
      exact .implicit hnone
    · intro hc
      cases hc with
      | declared hk howner => exact absurd howner (hnone _ _ hk)
      | implicit => rfl
  · next hempty =>
    rw [List.mem_map]
    constructor
    · rintro ⟨k, hk, rfl⟩
      obtain ⟨hk, howner⟩ := hmem.1 hk
      exact .declared hk howner
    · intro hc
      cases hc with
      | declared hk howner => exact ⟨_, hmem.2 ⟨hk, howner⟩, rfl⟩
      | implicit hnone =>
        rw [Bool.not_eq_true, List.isEmpty_eq_false_iff_exists_mem] at hempty
        obtain ⟨k, hk⟩ := hempty
        obtain ⟨hk, howner⟩ := hmem.1 hk
        exact absurd howner (hnone _ _ hk)

/-- A candidate can be called without arguments when it is viable for none. -/
theorem isDefault_iff_viable {c : Candidate} : c.isDefault = true ↔ h.Viable [] c := by
  rw [Candidate.isDefault_iff_acceptsArity]
  exact ⟨fun harity => ⟨harity, fun i hi => absurd hi (Nat.not_lt_zero i)⟩, fun hv => hv.arity⟩

/-! ## The verdict -/

theorem IsBest.unique {args : List TypeRef} {c d : Candidate} (hc : h.IsBest args c cs)
    (hd : h.IsBest args d cs) : c = d := by
  obtain ⟨rs, hrs⟩ := viable_iff_exists_ranks.1 hc.viable
  obtain ⟨ss, hss⟩ := viable_iff_exists_ranks.1 hd.viable
  have hresc := resolve_eq_resolved_iff (w := ⟨c, rs⟩).2 ⟨hc, hrs⟩
  have hresd := resolve_eq_resolved_iff (w := ⟨d, ss⟩).2 ⟨hd, hss⟩
  rw [hresc] at hresd
  cases hresd
  rfl

/-- The verdicts on a site with the target `t` and the candidates `cs`, each with its reason. -/
inductive Verdict (h : Hierarchy) (s : Site) (t : ClassId) (cs : List Candidate) :
    Option Finding → Prop where
  | accepted {c : Candidate} (hbest : h.IsBest s.arguments c cs)
      (haccess : h.isAccessible c.access c.declaring s.context = true) : Verdict h s t cs none
  | inaccessible {c : Candidate} (hbest : h.IsBest s.arguments c cs)
      (haccess : h.isAccessible c.access c.declaring s.context = false) :
    Verdict h s t cs (some (.inaccessible s c))
  | ambiguous {tied : List ConstructorRef} (hviable : ∃ c ∈ cs, h.Viable s.arguments c)
      (hbest : ¬ ∃ c, h.IsBest s.arguments c cs) :
    Verdict h s t cs (some (.atSite .ambiguousConstructor s t tied))
  | noViable (hexplicit : s.isImplicit = false) (hviable : ∀ c ∈ cs, ¬ h.Viable s.arguments c) :
    Verdict h s t cs (some (.atSite .noViableConstructor s t (cs.map (·.constructor))))
  | missingDefault (himplicit : s.isImplicit = true)
      (hviable : ∀ c ∈ cs, ¬ h.Viable s.arguments c) :
    Verdict h s t cs (some (.atSite .missingImplicitDefault s t (cs.map (·.constructor))))

theorem arguments_of_isImplicit (himplicit : s.isImplicit = true) : s.arguments = [] := by
  rw [Site.isImplicit, Option.isNone_iff_eq_none] at himplicit
  rw [Site.arguments, himplicit]
  rfl

theorem gather_eq_ok (ht : h.targetOf s = .ok t) (hcs : h.candidatesOf t = .ok cs) :
    h.gather s = .ok (if s.isImplicit && !cs.any (·.isDefault) then
      .missingDefault t (cs.map (·.constructor)) else .candidates t cs) := by
  refine bind_eq_ok_iff.2 ⟨t, ht, bind_eq_ok_iff.2 ⟨cs, mapError_eq_ok_iff.2 hcs, ?_⟩⟩
  split
  · rfl
  · rfl

/-- What can be called at a site are the candidates of its target. -/
theorem of_gather_eq_candidates (hg : h.gather s = .ok (.candidates t cs)) :
    h.targetOf s = .ok t ∧ h.candidatesOf t = .ok cs := by
  obtain ⟨t', ht, hg⟩ := bind_eq_ok_iff.1 hg
  obtain ⟨cs', hcs, hg⟩ := bind_eq_ok_iff.1 hg
  rw [mapError_eq_ok_iff] at hcs
  split at hg
  · cases hg
  · cases hg
    exact ⟨ht, hcs⟩

/-! What resolution chooses decides about the verdict. -/

theorem checkSite_of_resolved {w : Ranked} (hg : h.gather s = .ok (.candidates t cs))
    (hres : h.resolve cs s.arguments = .resolved w) :
    h.checkSite s = .ok (h.accessFinding s w.candidate) :=
  bind_eq_ok_iff.2 ⟨_, hg, by simp only [hres]; rfl⟩

theorem checkSite_of_ambiguous {tied : List ConstructorRef}
    (hg : h.gather s = .ok (.candidates t cs))
    (hres : h.resolve cs s.arguments = .ambiguous tied) :
    h.checkSite s = .ok (some (.atSite .ambiguousConstructor s t tied)) :=
  bind_eq_ok_iff.2 ⟨_, hg, by simp only [hres]; rfl⟩

theorem checkSite_of_noMatch (hg : h.gather s = .ok (.candidates t cs))
    (hres : h.resolve cs s.arguments = .noMatch) :
    h.checkSite s = .ok (some (.atSite .noViableConstructor s t (cs.map (·.constructor)))) :=
  bind_eq_ok_iff.2 ⟨_, hg, by simp only [hres]; rfl⟩

/-- **Every site with a target gets a verdict.** -/
theorem exists_verdict (ht : h.targetOf s = .ok t) (hcs : h.candidatesOf t = .ok cs) :
    ∃ v, h.checkSite s = .ok v ∧ h.Verdict s t cs v := by
  have hgather := gather_eq_ok ht hcs
  by_cases hmissing : (s.isImplicit && !cs.any (·.isDefault)) = true
  · rw [if_pos hmissing] at hgather
    obtain ⟨himplicit, hnone⟩ := Bool.and_eq_true_iff.1 hmissing
    refine ⟨_, bind_eq_ok_iff.2 ⟨_, hgather, rfl⟩, .missingDefault himplicit fun c hc hv => ?_⟩
    rw [arguments_of_isImplicit himplicit, ← isDefault_iff_viable] at hv
    simp only [Bool.not_eq_true', List.any_eq_false] at hnone
    exact hnone c hc hv
  · rw [if_neg hmissing] at hgather
    cases hres : h.resolve cs s.arguments with
    | resolved w =>
      have hbest := (resolve_eq_resolved_iff.1 hres).1
      refine ⟨h.accessFinding s w.candidate, checkSite_of_resolved hgather hres, ?_⟩
      unfold accessFinding
      split
      · next haccess => exact .accepted hbest haccess
      · next haccess => exact .inaccessible hbest (Bool.not_eq_true _ ▸ haccess)
    | ambiguous tied =>
      obtain ⟨hviable, hbest⟩ := exists_ambiguous_iff.1 ⟨tied, hres⟩
      exact ⟨some (.atSite .ambiguousConstructor s t tied), checkSite_of_ambiguous hgather hres,
        .ambiguous hviable hbest⟩
    | noMatch =>
      have hviable := resolve_eq_noMatch_iff.1 hres
      refine ⟨some (.atSite .noViableConstructor s t (cs.map (·.constructor))),
        checkSite_of_noMatch hgather hres, .noViable ?_ hviable⟩
      -- an implicit site would have a candidate that takes no arguments
      rw [← Bool.not_eq_true]
      intro himplicit
      have hany : cs.any (·.isDefault) = true := by simpa [himplicit] using hmissing
      obtain ⟨c, hc, hdefault⟩ := List.any_eq_true.1 hany
      refine hviable c hc ?_
      rw [arguments_of_isImplicit himplicit]
      exact isDefault_iff_viable.1 hdefault

/-- A site without a target fails with the error of the search for it, any other site does not. -/
theorem checkSite_eq_error_iff (hw : h.WellFormed) {e : CheckError} :
    h.checkSite s = .error e ↔ h.targetOf s = .error e := by
  cases ht : h.targetOf s with
  | error e' =>
    have hcheck : h.checkSite s = .error e' :=
      bind_eq_error_iff.2 (Or.inl (bind_eq_error_iff.2 (Or.inl ht)))
    rw [hcheck]
    simp
  | ok t =>
    obtain ⟨c, hc⟩ := targetOf_declared hw ht
    obtain ⟨cs, hcs⟩ := exists_candidatesOf hc
    obtain ⟨v, hv, -⟩ := exists_verdict ht hcs
    rw [hv]
    simp

/-- The verdict on a site is a finding of some kind. -/
def Reports (h : Hierarchy) (s : Site) (kind : FindingKind) : Prop :=
  ∃ f, h.checkSite s = .ok (some f) ∧ f.kind = kind

theorem reports_iff {v : Option Finding} (hv : h.checkSite s = .ok v) {kind : FindingKind} :
    h.Reports s kind ↔ v.map (·.kind) = some kind := by
  simp [Reports, hv]

namespace Verdict

variable {v : Option Finding}

/-! Of the five reasons for a verdict exactly one applies, so each verdict says which. -/

theorem eq_none_iff (hv : h.Verdict s t cs v) :
    v = none ↔ ∃ c, h.IsBest s.arguments c cs ∧
      h.isAccessible c.access c.declaring s.context = true := by
  cases hv with
  | accepted hbest haccess => exact iff_of_true rfl ⟨_, hbest, haccess⟩
  | inaccessible hbest haccess =>
    refine iff_of_false (by simp) ?_
    rintro ⟨d, hd, hdaccess⟩
    rw [hbest.unique hd, hdaccess] at haccess
    cases haccess
  | ambiguous _ hbest => exact iff_of_false (by simp) fun ⟨d, hd, _⟩ => hbest ⟨d, hd⟩
  | noViable _ hviable =>
    exact iff_of_false (by simp) fun ⟨d, hd, _⟩ => hviable d hd.mem hd.viable
  | missingDefault _ hviable =>
    exact iff_of_false (by simp) fun ⟨d, hd, _⟩ => hviable d hd.mem hd.viable

/-- A best candidate that may not be called is reported itself. -/
theorem eq_inaccessible (hv : h.Verdict s t cs v) {c : Candidate}
    (hc : h.IsBest s.arguments c cs)
    (haccess : h.isAccessible c.access c.declaring s.context = false) :
    v = some (.inaccessible s c) := by
  cases hv with
  | accepted hbest htrue =>
    rw [hbest.unique hc, haccess] at htrue
    cases htrue
  | inaccessible hbest => rw [hbest.unique hc]
  | ambiguous _ hbest => exact absurd ⟨c, hc⟩ hbest
  | noViable _ hviable => exact absurd hc.viable (hviable c hc.mem)
  | missingDefault _ hviable => exact absurd hc.viable (hviable c hc.mem)

theorem kind_eq_inaccessible_iff (hv : h.Verdict s t cs v) :
    v.map (·.kind) = some .inaccessibleConstructor ↔ ∃ c, h.IsBest s.arguments c cs ∧
      h.isAccessible c.access c.declaring s.context = false := by
  constructor
  · intro hkind
    cases hv with
    | accepted => cases hkind
    | inaccessible hbest haccess => exact ⟨_, hbest, haccess⟩
    | ambiguous => cases hkind
    | noViable => cases hkind
    | missingDefault => cases hkind
  · rintro ⟨c, hc, haccess⟩
    rw [hv.eq_inaccessible hc haccess]
    rfl

theorem kind_eq_ambiguous_iff (hv : h.Verdict s t cs v) :
    v.map (·.kind) = some .ambiguousConstructor ↔
      (∃ c ∈ cs, h.Viable s.arguments c) ∧ ¬ ∃ c, h.IsBest s.arguments c cs := by
  cases hv with
  | accepted hbest => exact iff_of_false nofun fun hno => hno.2 ⟨_, hbest⟩
  | inaccessible hbest => exact iff_of_false nofun fun hno => hno.2 ⟨_, hbest⟩
  | ambiguous hviable hbest => exact iff_of_true rfl ⟨hviable, hbest⟩
  | noViable _ hviable => exact iff_of_false nofun fun ⟨⟨d, hd, hdv⟩, _⟩ => hviable d hd hdv
  | missingDefault _ hviable =>
    exact iff_of_false nofun fun ⟨⟨d, hd, hdv⟩, _⟩ => hviable d hd hdv

theorem kind_eq_noViable_iff (hv : h.Verdict s t cs v) :
    v.map (·.kind) = some .noViableConstructor ↔
      s.isImplicit = false ∧ ∀ c ∈ cs, ¬ h.Viable s.arguments c := by
  cases hv with
  | accepted hbest => exact iff_of_false nofun fun hno => hno.2 _ hbest.mem hbest.viable
  | inaccessible hbest => exact iff_of_false nofun fun hno => hno.2 _ hbest.mem hbest.viable
  | ambiguous hviable =>
    obtain ⟨c, hc, hcv⟩ := hviable
    exact iff_of_false nofun fun hno => hno.2 c hc hcv
  | noViable hexplicit hviable => exact iff_of_true rfl ⟨hexplicit, hviable⟩
  | missingDefault himplicit => exact iff_of_false nofun fun hno => by simp [himplicit] at hno

theorem kind_eq_missingDefault_iff (hv : h.Verdict s t cs v) :
    v.map (·.kind) = some .missingImplicitDefault ↔
      s.isImplicit = true ∧ ∀ c ∈ cs, ¬ h.Viable s.arguments c := by
  cases hv with
  | accepted hbest => exact iff_of_false nofun fun hno => hno.2 _ hbest.mem hbest.viable
  | inaccessible hbest => exact iff_of_false nofun fun hno => hno.2 _ hbest.mem hbest.viable
  | ambiguous hviable =>
    obtain ⟨c, hc, hcv⟩ := hviable
    exact iff_of_false nofun fun hno => hno.2 c hc hcv
  | noViable hexplicit => exact iff_of_false nofun fun hno => by simp [hexplicit] at hno
  | missingDefault himplicit hviable => exact iff_of_true rfl ⟨himplicit, hviable⟩

end Verdict

/--
**What checking a site says.** It fails exactly when the site has no target, with that error. A
site with a target is in order when the best of the candidates may be called there; otherwise the
kind of the finding tells whether the best candidate is inaccessible, whether there are viable
candidates but no best one, or whether none is viable, with an initializer or without.
-/
theorem checkSite_spec (hr : h.Reachable) (s : Site) :
    (∀ e, h.checkSite s = .error e ↔ h.targetOf s = .error e) ∧
    ∀ t, h.targetOf s = .ok t → ∃ cs, h.candidatesOf t = .ok cs ∧
      (∀ c, c ∈ cs ↔ h.IsCandidate t c) ∧
      (h.checkSite s = .ok none ↔ ∃ c, h.IsBest s.arguments c cs ∧
        h.isAccessible c.access c.declaring s.context = true) ∧
      (h.Reports s .inaccessibleConstructor ↔ ∃ c, h.IsBest s.arguments c cs ∧
        h.isAccessible c.access c.declaring s.context = false) ∧
      (∀ c, h.IsBest s.arguments c cs →
        h.isAccessible c.access c.declaring s.context = false →
          ∃ f, h.checkSite s = .ok (some f) ∧
            f.constructor? = some c.constructor ∧ f.access? = some c.access) ∧
      (h.Reports s .ambiguousConstructor ↔
        (∃ c ∈ cs, h.Viable s.arguments c) ∧ ¬ ∃ c, h.IsBest s.arguments c cs) ∧
      (h.Reports s .noViableConstructor ↔
        s.isImplicit = false ∧ ∀ c ∈ cs, ¬ h.Viable s.arguments c) ∧
      (h.Reports s .missingImplicitDefault ↔
        s.isImplicit = true ∧ ∀ c ∈ cs, ¬ h.Viable s.arguments c) := by
  have hw := hr.wellFormed
  refine ⟨fun e => checkSite_eq_error_iff hw, fun t ht => ?_⟩
  obtain ⟨d, hd⟩ := targetOf_declared hw ht
  obtain ⟨cs, hcs⟩ := exists_candidatesOf hd
  obtain ⟨v, hv, hverdict⟩ := exists_verdict ht hcs
  simp only [reports_iff hv]
  refine ⟨cs, hcs, fun c => mem_candidatesOf_iff hw hcs, ?_, hverdict.kind_eq_inaccessible_iff,
    fun c hc haccess => ?_, hverdict.kind_eq_ambiguous_iff, hverdict.kind_eq_noViable_iff,
    hverdict.kind_eq_missingDefault_iff⟩
  · rw [hv, Except.ok.injEq]
    exact hverdict.eq_none_iff
  · rw [hv, hverdict.eq_inaccessible hc haccess]
    exact ⟨_, rfl, rfl, rfl⟩

/-- A member without an initializer whose class has a private constructor only. -/
theorem checkSite_spec_private_part :
    let h := Hierarchy.empty.run [.newClass "Part" .unknown,
      .constructor ⟨0⟩ [] .privateAccess .unknown, .newClass "Whole" .unknown,
      .member ⟨1⟩ "part" (.ofClass ⟨0⟩) .publicAccess none .unknown]
    let s : Site := ⟨⟨1⟩, .member ⟨0⟩, none, .unknown⟩
    h.Reachable ∧ h.targetOf s = .ok ⟨0⟩ ∧
      h.IsBest s.arguments ⟨.declared ⟨0⟩, ⟨0⟩, .privateAccess, []⟩
        [⟨.declared ⟨0⟩, ⟨0⟩, .privateAccess, []⟩] ∧
      ∃ f, h.checkSite s = .ok (some f) ∧ f.constructor? = some (.declared ⟨0⟩) ∧
        f.access? = some .privateAccess := by
  intro h s
  have hr : h.Reachable := ⟨_, rfl⟩
  have ht : h.targetOf s = .ok ⟨0⟩ := rfl
  obtain ⟨cs, hcs, -, -, -, hinaccessible, -⟩ := (checkSite_spec hr s).2 ⟨0⟩ ht
  have hone : [⟨.declared ⟨0⟩, ⟨0⟩, .privateAccess, []⟩] = cs := Except.ok.inj hcs
  subst hone
  have hbest : h.IsBest s.arguments ⟨.declared ⟨0⟩, ⟨0⟩, .privateAccess, []⟩
      [⟨.declared ⟨0⟩, ⟨0⟩, .privateAccess, []⟩] :=
    ⟨List.mem_singleton.2 rfl, ⟨rfl, fun i hi => absurd hi (Nat.not_lt_zero i)⟩,
      fun d hd => absurd hd (by simp)⟩
  exact ⟨hr, ht, hbest, hinaccessible _ hbest rfl⟩

end ConstructorCheck.Hierarchy
