import Mathlib
import ConstructorCheck.Hierarchy.History
import ConstructorCheck.Proofs.Check.Verdict
/-!
# Argument counts

How many arguments a constructor takes is read off the front of its parameter list: the parameters
before the first default are required. A reachable hierarchy has no parameter without a default
behind one with a default, so these are all that are required.

* `requiredArity_eq_countP` — the required parameters are those without a default
* `requiredArity_le_iff` — a number of arguments is enough when the parameters after them default
* `arity_spec` — the constructors and the candidates of a reachable hierarchy
-/

namespace ConstructorCheck

variable {p : Param} {ps : List Param} {n : Nat}

/-! ## Parameter lists whose defaults come last -/

/-- Behind a default there are only defaults. -/
theorem defaultsTrail_cons_of_defaulted (hp : p.defaulted = true) :
    defaultsTrail (p :: ps) = true ↔ ∀ q ∈ ps, q.defaulted = true := by
  simp [defaultsTrail, hp]

theorem defaultsTrail_cons_of_required (hp : p.defaulted = false) :
    defaultsTrail (p :: ps) = defaultsTrail ps := by
  simp [defaultsTrail, hp]

theorem requiredArity_cons_of_defaulted (hp : p.defaulted = true) :
    requiredArity (p :: ps) = 0 := by
  simp [requiredArity, hp]

theorem requiredArity_cons_of_required (hp : p.defaulted = false) :
    requiredArity (p :: ps) = requiredArity ps + 1 := by
  simp [requiredArity, hp]

/-- **The required parameters are those without a default**, not only the first of them. -/
theorem requiredArity_eq_countP (htrail : defaultsTrail ps = true) :
    requiredArity ps = ps.countP fun p => !p.defaulted := by
  induction ps with
  | nil => rfl
  | cons p ps ih =>
    rw [List.countP_cons]
    cases hp : p.defaulted with
    | true =>
      have hall := (defaultsTrail_cons_of_defaulted hp).1 htrail
      have hnone : (ps.countP fun q => !q.defaulted) = 0 :=
        List.countP_eq_zero.2 fun q hq => by simp [hall q hq]
      rw [requiredArity_cons_of_defaulted hp, hnone]
      rfl
    | false =>
      rw [defaultsTrail_cons_of_required hp] at htrail
      rw [requiredArity_cons_of_required hp, ih htrail]
      rfl

/-- The parameters with a default are the last ones, so enough arguments reach the first of them. -/
theorem requiredArity_le_iff (htrail : defaultsTrail ps = true) :
    requiredArity ps ≤ n ↔ ∀ p ∈ ps.drop n, p.defaulted = true := by
  induction ps generalizing n with
  | nil => simp [requiredArity]
  | cons p ps ih =>
    cases hp : p.defaulted with
    | true =>
      have hall : ∀ q ∈ p :: ps, q.defaulted = true :=
        List.forall_mem_cons.2 ⟨hp, (defaultsTrail_cons_of_defaulted hp).1 htrail⟩
      rw [requiredArity_cons_of_defaulted hp]
      exact iff_of_true (Nat.zero_le n) fun q hq => hall q (List.mem_of_mem_drop hq)
    | false =>
      rw [defaultsTrail_cons_of_required hp] at htrail
      rw [requiredArity_cons_of_required hp]
      cases n with
      | zero => simp [hp]
      | succ n => rw [Nat.add_le_add_iff_right, ih htrail, List.drop_succ_cons]

/-- A call may end where all parameters that are left have a default. -/
theorem acceptsArity_iff (htrail : defaultsTrail ps = true) :
    acceptsArity ps n = true ↔ n ≤ ps.length ∧ ∀ p ∈ ps.drop n, p.defaulted = true := by
  rw [acceptsArity_eq_true_iff, requiredArity_le_iff htrail, and_comm]

/-- Each argument of an accepted call meets a parameter. -/
theorem map_fst_zip_of_acceptsArity {args : List TypeRef}
    (haccepts : acceptsArity ps args.length = true) : (args.zip ps).map Prod.fst = args :=
  List.map_fst_zip (le_length_of_acceptsArity haccepts)

namespace Hierarchy

variable {h : Hierarchy} {t : ClassId} {cs : List Candidate} {c : Candidate}

theorem defaultsTrail_of_mem (hw : h.WellFormed) {k : ConstructorDecl} (hk : k ∈ h.constructors) :
    defaultsTrail k.params = true := by
  obtain ⟨i, hi⟩ := List.mem_iff_getElem?.1 hk
  have hid : h.constructor? ⟨i⟩ = some k := hi
  exact hw.defaults_trail hid

/-- A candidate stands for a declared constructor, or it is the implicit one. -/
theorem IsCandidate.declared_or_implicit (hc : h.IsCandidate t c) :
    (∃ k ∈ h.constructors, k.owner = t ∧ c = k.candidate t) ∨ c = .implicitDefault t := by
  cases hc with
  | declared hk howner => exact .inl ⟨_, List.mem_of_getElem? hk, howner, rfl⟩
  | implicit hnone => exact .inr rfl

theorem IsCandidate.defaultsTrail (hw : h.WellFormed) (hc : h.IsCandidate t c) :
    defaultsTrail c.params = true := by
  rcases hc.declared_or_implicit with ⟨k, hk, -, rfl⟩ | rfl
  · exact defaultsTrail_of_mem hw hk
  · rfl

/--
**How many arguments a constructor takes.** In a reachable hierarchy a constructor requires as many
arguments as it has parameters without a default, and it takes a number of arguments if there are
that many parameters and all further ones have defaults. So does a candidate, which is a constructor
of the class or the implicit one without parameters. It is a default constructor if it takes no
arguments, and each argument of a call that it takes meets a parameter.
-/
theorem arity_spec (hr : h.Reachable) :
    (∀ k ∈ h.constructors,
      requiredArity k.params = (k.params.countP fun p => !p.defaulted) ∧
      ∀ n, acceptsArity k.params n = true ↔
        n ≤ k.params.length ∧ ∀ p ∈ k.params.drop n, p.defaulted = true) ∧
    ∀ t cs, h.candidatesOf t = .ok cs → ∀ c ∈ cs,
      ((∃ k ∈ h.constructors, k.owner = t ∧ c = k.candidate t) ∨ c = .implicitDefault t) ∧
      (c.isDefault = true ↔ acceptsArity c.params 0 = true) ∧
      (∀ n, acceptsArity c.params n = true ↔
        n ≤ c.params.length ∧ ∀ p ∈ c.params.drop n, p.defaulted = true) ∧
      ∀ args : List TypeRef, acceptsArity c.params args.length = true →
        (args.zip c.params).map Prod.fst = args := by
  have hw := hr.wellFormed
  refine ⟨fun k hk => ?_, fun t cs hcs c hc => ?_⟩
  · have htrail := defaultsTrail_of_mem hw hk
    exact ⟨requiredArity_eq_countP htrail, fun n => acceptsArity_iff htrail⟩
  · have hcandidate := (mem_candidatesOf_iff hw hcs).1 hc
    exact ⟨hcandidate.declared_or_implicit, c.isDefault_iff_acceptsArity,
      fun n => acceptsArity_iff (hcandidate.defaultsTrail hw),
      fun args => map_fst_zip_of_acceptsArity⟩

/-- A constructor with a default, and a constructor that is refused for one in front. -/
theorem arity_spec_one_default :
    let h := Hierarchy.empty.run [.newClass "Target" .unknown,
      .constructor ⟨0⟩ [⟨.primitive .int, true⟩, ⟨.primitive .double, false⟩] .publicAccess .unknown,
      .constructor ⟨0⟩ [⟨.primitive .int, false⟩, ⟨.primitive .double, true⟩] .publicAccess .unknown]
    let k : ConstructorDecl := ⟨⟨0⟩, ⟨0⟩, [⟨.primitive .int, false⟩, ⟨.primitive .double, true⟩],
      .publicAccess, .unknown⟩
    h.Reachable ∧ k ∈ h.constructors ∧ requiredArity k.params = 1 ∧
      acceptsArity k.params 1 = true ∧ acceptsArity k.params 0 = false ∧
      h.candidatesOf ⟨0⟩ = .ok [k.candidate ⟨0⟩] ∧ (k.candidate ⟨0⟩).isDefault = false := by
  intro h k
  have hr : h.Reachable := ⟨_, rfl⟩
  have hh : h = ⟨[⟨⟨0⟩, "Target", .unknown, .unknown, [], [], [⟨0⟩]⟩], [], [k],
      [("Target", ⟨0⟩)]⟩ := by
    unfold h k
    cbv
  rw [hh] at hr ⊢
  have hk : k ∈ [k] := List.mem_cons_self
  obtain ⟨hconstructors, hcandidates⟩ := arity_spec hr
  obtain ⟨hrequired, haccepts⟩ := hconstructors k hk
  have hnone : acceptsArity k.params 0 = false :=
    Bool.eq_false_iff.2 fun hzero => absurd ((haccepts 0).1 hzero) (by decide)
  obtain ⟨-, hdefault, -⟩ := hcandidates ⟨0⟩ [k.candidate ⟨0⟩] rfl _ List.mem_cons_self
  refine ⟨hr, hk, hrequired.trans rfl, (haccepts 1).2 (by decide), hnone, rfl, ?_⟩
  exact Bool.eq_false_iff.2 fun hd => Bool.eq_false_iff.1 hnone (hdefault.1 hd)

end Hierarchy

end ConstructorCheck
