import Mathlib
import ConstructorCheck.Proofs.Check.Verdict
import ConstructorCheck.Proofs.Masking.Declarations
import ConstructorCheck.Proofs.Overload.Mapping
/-!
# Checking behind a mask

Access decides last. Until a constructor is selected for a site, a check reads no access level but
the one that tells public inheritance from the rest; then it asks whether the selected constructor
may be called, and whatever the answer is, no other constructor is tried.

* `select` — a check up to the question of access
* `select_hierarchy` — behind a mask, the same is selected
* `access_decides_last` — runs that differ in access levels only, and the sites checked after them
-/

namespace ConstructorCheck

/-- What a site comes to before access is considered. -/
inductive Selection where
  /-- No constructor is selected, and this is reported. -/
  | finding (x : Finding)
  | winner (w : Ranked)

namespace Hierarchy

variable (h : Hierarchy)

/-- What the candidates at a site come to before access is considered. -/
def selection (s : Site) : Gathered → Selection
  | .missingDefault target considered =>
    .finding (.atSite .missingImplicitDefault s target considered)
  | .candidates target cs =>
    match h.resolve cs s.arguments with
    | .ambiguous tied => .finding (.atSite .ambiguousConstructor s target tied)
    | .noMatch => .finding (.atSite .noViableConstructor s target (cs.map (·.constructor)))
    | .resolved w => .winner w

/-- What a site comes to before access is considered. -/
def select (s : Site) : Except CheckError Selection := (h.gather s).map (h.selection s)

/-- What a selection comes to when access is considered. -/
def judge (s : Site) : Selection → Option Finding
  | .finding x => some x
  | .winner w => h.accessFinding s w.candidate

variable {h} {h' : Hierarchy} {s : Site} {w : Ranked} {x : Finding}

theorem checkSite_eq_select : h.checkSite s = (h.select s).map (h.judge s) := by
  rw [select]
  unfold checkSite
  cases h.gather s with
  | error e => rfl
  | ok g =>
    cases g with
    | missingDefault target considered => rfl
    | candidates target cs =>
      simp only [Except.map, selection, bind, Except.bind]
      cases h.resolve cs s.arguments <;> rfl

/-- A constructor is selected when it is the best of the candidates. -/
theorem select_eq_winner_iff : h.select s = .ok (.winner w) ↔
    ∃ t cs, h.gather s = .ok (.candidates t cs) ∧ h.resolve cs s.arguments = .resolved w := by
  rw [select, map_eq_ok_iff]
  constructor
  · rintro ⟨g, hg, hw⟩
    cases g with
    | missingDefault target considered => cases hw
    | candidates target cs =>
      refine ⟨target, cs, hg, ?_⟩
      unfold selection at hw
      cases hres : h.resolve cs s.arguments with
      | resolved w' =>
        simp only [hres, Selection.winner.injEq] at hw
        rw [hw]
      | ambiguous tied => simp only [hres, reduceCtorEq] at hw
      | noMatch => simp only [hres, reduceCtorEq] at hw
  · rintro ⟨target, cs, hg, hres⟩
    exact ⟨_, hg, by simp only [selection, hres]⟩

theorem kind_of_select (hx : h.select s = .ok (.finding x)) :
    x.kind ≠ .inaccessibleConstructor := by
  obtain ⟨g, -, hg⟩ := map_eq_ok_iff.1 hx
  unfold selection at hg
  split at hg
  · cases hg
    exact nofun
  · split at hg
    · cases hg
      exact nofun
    · cases hg
      exact nofun
    · cases hg

end Hierarchy

namespace Mask

variable (μ : Mask) (h : Hierarchy)

/-! ## What is masked -/

def candidate (c : Candidate) : Candidate := { c with access := μ.constructor c.access }

def gathered : Gathered → Gathered
  | .candidates target cs => .candidates target (cs.map μ.candidate)
  | .missingDefault target considered => .missingDefault target considered

def selection : Selection → Selection
  | .finding x => .finding x
  | .winner w => .winner (w.map μ.candidate)

theorem candidate_implicitDefault (id : ClassId) :
    μ.candidate (.implicitDefault id) = .implicitDefault id := by
  simp only [candidate, Candidate.implicitDefault, μ.constructor_public]

/-! ## Candidates and ranks -/

theorem candidatesOf_hierarchy (i : ClassId) :
    (μ.hierarchy h).candidatesOf i = relabel id (List.map μ.candidate) (h.candidatesOf i) := by
  rw [Hierarchy.candidatesOf, ownConstructors_hierarchy]
  refine relabel_map fun ks => ?_
  rw [List.isEmpty_map]
  split
  · rw [List.map_singleton, candidate_implicitDefault]
  · rw [List.map_map, List.map_map]
    rfl

theorem conversionRank_hierarchy (arg param : TypeRef) :
    (μ.hierarchy h).conversionRank arg param = h.conversionRank arg param := by
  simp only [Hierarchy.conversionRank, isAccessibleBase_hierarchy]

theorem ranks?_hierarchy (args : List TypeRef) (c : Candidate) :
    (μ.hierarchy h).ranks? args (μ.candidate c) = h.ranks? args c := by
  simp only [Hierarchy.ranks?, conversionRank_hierarchy]
  rfl

theorem resolve_hierarchy (cs : List Candidate) (args : List TypeRef) :
    (μ.hierarchy h).resolve (cs.map μ.candidate) args = (h.resolve cs args).map μ.candidate id :=
  Hierarchy.resolve_map (μ.ranks?_hierarchy h args) (fun _ => rfl) cs

/-! ## Sites -/

theorem targetOf_hierarchy (s : Site) : (μ.hierarchy h).targetOf s = h.targetOf s := by
  unfold Hierarchy.targetOf
  rw [getClass_hierarchy]
  cases h.getClass s.context with
  | error e => rfl
  | ok c =>
    simp only [relabel_ok, Except.mapError, bind, Except.bind]
    cases s.subject with
    | base i =>
      simp only [any_base_classDecl, typeName_hierarchy]
      rfl
    | member i =>
      simp only [getMember_hierarchy]
      cases h.getMember i <;> rfl

theorem gather_hierarchy (s : Site) :
    (μ.hierarchy h).gather s = relabel id μ.gathered (h.gather s) := by
  unfold Hierarchy.gather
  rw [targetOf_hierarchy]
  cases h.targetOf s with
  | error e => rfl
  | ok t =>
    simp only [bind, Except.bind, candidatesOf_hierarchy]
    cases h.candidatesOf t with
    | error e => rfl
    | ok cs =>
      simp only [relabel_ok, Except.mapError, List.any_map, List.map_map]
      -- an access says nothing about the parameters
      rw [show Candidate.isDefault ∘ μ.candidate = Candidate.isDefault from rfl]
      split
      · rfl
      · rfl

theorem selection_hierarchy (s : Site) (g : Gathered) :
    (μ.hierarchy h).selection s (μ.gathered g) = μ.selection (h.selection s g) := by
  cases g with
  | missingDefault target considered => rfl
  | candidates target cs =>
    simp only [gathered, Hierarchy.selection, resolve_hierarchy]
    cases h.resolve cs s.arguments with
    | resolved w => rfl
    | ambiguous tied => simp only [Resolution.map, List.map_id, selection]
    | noMatch =>
      simp only [Resolution.map, selection, List.map_map]
      rfl

/-- **Behind a mask, the same is selected.** -/
theorem select_hierarchy (s : Site) :
    (μ.hierarchy h).select s = relabel id μ.selection (h.select s) := by
  rw [Hierarchy.select, gather_hierarchy]
  exact relabel_map (μ.selection_hierarchy h s)

theorem isAccessible_hierarchy (access : Access) (declaring calling : ClassId) :
    (μ.hierarchy h).isAccessible access declaring calling =
      h.isAccessible access declaring calling := by
  cases access with
  | protectedAccess => simp only [Hierarchy.isAccessible, isDerivedFrom_hierarchy]
  | _ => rfl

/-- A mask that shows the constructors hides nothing that a check asks for. -/
theorem checkSite_spared (s : Site) :
    (sparingConstructors.hierarchy h).checkSite s = h.checkSite s := by
  have hcandidate (c : Candidate) : sparingConstructors.candidate c = c := rfl
  have hjudge (σ : Selection) :
      (sparingConstructors.hierarchy h).judge s (sparingConstructors.selection σ) =
        h.judge s σ := by
    cases σ with
    | finding x => rfl
    | winner w =>
      simp only [selection, Ranked.map, hcandidate, Hierarchy.judge, Hierarchy.accessFinding]
      rw [isAccessible_hierarchy]
  rw [Hierarchy.checkSite_eq_select, Hierarchy.checkSite_eq_select, select_hierarchy]
  exact (relabel_map (g := id) hjudge).trans (relabel_id _)

end Mask

/-! ## Up to access -/

namespace Hierarchy

/-- Overload resolution at a site ends with a winner, and what is reported is at most that the
winner is inaccessible. -/
structure Resolves (h : Hierarchy) (s : Site) (w : Ranked) : Prop where
  resolved : ∃ t cs, h.gather s = .ok (.candidates t cs) ∧ h.resolve cs s.arguments = .resolved w
  verdict : h.checkSite s = .ok none ∨ h.checkSite s = .ok (some (.inaccessible s w.candidate))

/-- In two hierarchies a check of a site comes to the same, up to the question of access. -/
inductive AgreesAt (h h' : Hierarchy) (s : Site) : Prop where
  | failed {e : CheckError} (he : h.checkSite s = .error e) (he' : h'.checkSite s = .error e)
  /-- Without a winner the same is reported. -/
  | unresolved {x : Finding} (hkind : x.kind ≠ .inaccessibleConstructor)
    (hx : h.checkSite s = .ok (some x)) (hx' : h'.checkSite s = .ok (some x))
  /-- The same constructor wins with the same ranks. -/
  | resolved {w w' : Ranked} (hw : h.Resolves s w) (hw' : h'.Resolves s w')
    (hconstructor : w.candidate.constructor = w'.candidate.constructor)
    (hdeclaring : w.candidate.declaring = w'.candidate.declaring) (hranks : w.ranks = w'.ranks)

variable {h h' : Hierarchy} {s : Site} {w : Ranked}

theorem resolves_of_select (hw : h.select s = .ok (.winner w)) : h.Resolves s w := by
  refine ⟨select_eq_winner_iff.1 hw, ?_⟩
  have hverdict : h.checkSite s = .ok (h.accessFinding s w.candidate) := by
    rw [checkSite_eq_select, hw]
    rfl
  rw [hverdict, accessFinding]
  split
  · exact .inl rfl
  · exact .inr rfl

/-- **What a check comes to before it asks about access does not depend on access.** -/
theorem agreesAt_of_hidden_eq
    (hhidden : Mask.hidingConstructors.hierarchy h = Mask.hidingConstructors.hierarchy h')
    (s : Site) : h.AgreesAt h' s := by
  have hcheck {g : Hierarchy} {r : Except CheckError Selection} (hr : g.select s = r) :
      g.checkSite s = r.map (g.judge s) := by
    rw [checkSite_eq_select, hr]
  have hselect := Mask.hidingConstructors.select_hierarchy h s
  rw [hhidden, Mask.select_hierarchy, relabel_id_eq_iff] at hselect
  rcases hselect with ⟨e, he', he⟩ | ⟨σ', σ, hσ', hσ, hsame⟩
  · exact .failed (hcheck he) (hcheck he')
  · cases σ with
    | finding x =>
      cases σ' with
      | finding x' =>
        cases hsame
        exact .unresolved (kind_of_select hσ) (hcheck hσ) (hcheck hσ')
      | winner w' => cases hsame
    | winner w =>
      cases σ' with
      | finding x' => cases hsame
      | winner w' =>
        have hmask : w'.map Mask.hidingConstructors.candidate =
          w.map Mask.hidingConstructors.candidate := Selection.winner.inj hsame
        exact .resolved (resolves_of_select hσ) (resolves_of_select hσ')
          (congrArg (·.candidate.constructor) hmask.symm)
          (congrArg (·.candidate.declaring) hmask.symm) (congrArg (·.ranks) hmask.symm)

end Hierarchy

/-! ## Two runs -/

namespace InPlace

variable {h : Hierarchy} {ds ds' : List Declaration} {μ : Mask}

/-- Runs that look the same have the same answers and end with hierarchies that look the same. -/
theorem declareAll_of_map_declaration_eq (hds : ds.map μ.declaration = ds'.map μ.declaration) :
    (declareAll h ds).1 = (declareAll h ds').1 ∧
      μ.hierarchy (declareAll h ds).2 = μ.hierarchy (declareAll h ds').2 := by
  have hrun := μ.declareAll_hierarchy h ds
  rw [hds, Mask.declareAll_hierarchy, Prod.mk.injEq] at hrun
  exact ⟨hrun.1.symm, hrun.2.symm⟩

/--
**Access decides last.** Two runs make the same declarations, except that members and constructors
may differ in access and that inheritance may be protected in one and private in the other. They get
the same answers. Afterwards every site fails with the same error in both, or has the same finding
in both, or the same constructor wins with the same ranks in both and is accessible or not: no other
constructor ever takes its place. If the constructors have the same access, the verdicts are the
same.
-/
theorem access_decides_last (h : Hierarchy) (hds : List.Forall₂ Declaration.Resembles ds ds') :
    (declareAll h ds).1 = (declareAll h ds').1 ∧
    (∀ s, (declareAll h ds).2.AgreesAt (declareAll h ds').2 s) ∧
    (((declareAll h ds).2.constructors.map (·.access) =
        (declareAll h ds').2.constructors.map (·.access) ∨
      ds.map (·.constructorAccess?) = ds'.map (·.constructorAccess?)) →
      ∀ s, (declareAll h ds).2.checkSite s = (declareAll h ds').2.checkSite s) := by
  obtain ⟨hanswers, hhidden⟩ :=
    declareAll_of_map_declaration_eq (h := h) (Mask.map_hidden_eq_of_resembles hds)
  refine ⟨hanswers, Hierarchy.agreesAt_of_hidden_eq hhidden, fun haccess s => ?_⟩
  have hspared : Mask.sparingConstructors.hierarchy (declareAll h ds).2 =
      Mask.sparingConstructors.hierarchy (declareAll h ds').2 := by
    rcases haccess with hbuilt | hdeclared
    · exact Mask.spared_eq_of_hidden_eq hhidden hbuilt
    · have hshown := congrArg (List.map (Option.map Mask.sparingConstructors.constructor)) hdeclared
      rw [List.map_map, List.map_map] at hshown
      exact (declareAll_of_map_declaration_eq (Mask.map_declaration_eq_of_resembles hds hshown)).2
  rw [← Mask.checkSite_spared, hspared, Mask.checkSite_spared]

/-- A constructor that fits exactly and may be private, next to a public one that does not. -/
theorem access_decides_last_private_match :
    let ds (inherited fitting : Access) : List Declaration := [.newClass "Base" .unknown,
      .newClass "Part" .unknown, .newClass "Whole" .unknown, .base ⟨1⟩ ⟨0⟩ inherited .unknown,
      .constructor ⟨1⟩ [⟨.primitive .int, false⟩] fitting .unknown,
      .constructor ⟨1⟩ [⟨.primitive .double, false⟩] .publicAccess .unknown,
      .member ⟨2⟩ "part" (.ofClass ⟨1⟩) fitting none .unknown]
    let final (inherited fitting : Access) := (declareAll .empty (ds inherited fitting)).2
    let s : Site := ⟨⟨2⟩, .member ⟨0⟩, some [.primitive .int], .unknown⟩
    let k : Candidate := ⟨.declared ⟨0⟩, ⟨1⟩, .privateAccess, [⟨.primitive .int, false⟩]⟩
    List.Forall₂ Declaration.Resembles (ds .privateAccess .privateAccess)
        (ds .protectedAccess .publicAccess) ∧
      (declareAll .empty (ds .privateAccess .privateAccess)).1 =
        (declareAll .empty (ds .protectedAccess .publicAccess)).1 ∧
      (final .privateAccess .privateAccess).AgreesAt (final .protectedAccess .publicAccess) s ∧
      (final .privateAccess .privateAccess).checkSite s = .ok (some (.inaccessible s k)) ∧
      (final .protectedAccess .publicAccess).checkSite s = .ok none ∧
      ∀ r, (final .privateAccess .publicAccess).checkSite r =
        (final .protectedAccess .publicAccess).checkSite r := by
  intro ds final s k
  have hresembles (fitting fitting' : Access) : List.Forall₂ Declaration.Resembles
      (ds .privateAccess fitting) (ds .protectedAccess fitting') :=
    .cons (.newClass ..) <| .cons (.newClass ..) <| .cons (.newClass ..) <|
      .cons (.base _ _ _ (by decide)) <| .cons (.constructor ..) <| .cons (.constructor ..) <|
        .cons (.member ..) .nil
  have hfinal (inherited fitting : Access) : final inherited fitting =
      ⟨[⟨⟨0⟩, "Base", .unknown, .unknown, [], [], []⟩,
        ⟨⟨1⟩, "Part", .unknown, .unknown, [⟨⟨0⟩, inherited, .unknown⟩], [], [⟨0⟩, ⟨1⟩]⟩,
        ⟨⟨2⟩, "Whole", .unknown, .unknown, [], [⟨0⟩], []⟩],
      [⟨⟨0⟩, ⟨2⟩, "part", .ofClass ⟨1⟩, fitting, true, .unknown⟩],
      [⟨⟨0⟩, ⟨1⟩, [⟨.primitive .int, false⟩], fitting, .unknown⟩,
        ⟨⟨1⟩, ⟨1⟩, [⟨.primitive .double, false⟩], .publicAccess, .unknown⟩],
      [("Whole", ⟨2⟩), ("Part", ⟨1⟩), ("Base", ⟨0⟩)]⟩ := by
    unfold final ds
    cbv
  have hdiffer := access_decides_last .empty (hresembles .privateAccess .publicAccess)
  have hsame := access_decides_last .empty (hresembles .publicAccess .publicAccess)
  refine ⟨hresembles _ _, hdiffer.1, hdiffer.2.1 s, ?_, ?_, hsame.2.2 (.inr rfl)⟩
  · rw [hfinal]
    rfl
  · rw [hfinal]
    rfl

end InPlace

end ConstructorCheck
