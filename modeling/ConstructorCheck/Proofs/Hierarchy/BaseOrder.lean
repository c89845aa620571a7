import ConstructorCheck.Proofs.Hierarchy.Extension
/-!
# Bases in any order

Each new base is checked against the hierarchy as it stands when its turn comes: from the base
upwards, from the derived class downwards, and for a chain that leads back. For classes without
bases all these checks together come to one question about the whole list of bases, which does not
mention the order.

* `RequestedEdge` — the relation that a list of requests asks for
* `exists_addBases_iff` — a list is accepted in full when its edges are distinct, without a cycle
  and without a chain beyond the limit
* `baseGraph_edge_iff_of_addBases` — the edges of the resulting hierarchy, read off the list
* `addBases_spec` — both, and what follows for another order

That an edge is public, or of whatever access, is part of the request that brings it. So chains of
public edges do not depend on the order either.
-/

namespace ConstructorCheck

/-! ## Requests -/

/-- A request to make one class a direct base of another. -/
structure BaseRequest where
  derived : ClassId
  base : ClassId
  access : Access
  span : Span

namespace BaseRequest

def edge (e : BaseRequest) : ClassId × ClassId := (e.derived, e.base)

/-- The entry that the request puts in the list of bases. -/
def specifier (e : BaseRequest) : BaseSpecifier := ⟨e.base, e.access, e.span⟩

def declaration (e : BaseRequest) : Declaration := .base e.derived e.base e.access e.span

end BaseRequest

/-- Some request makes `b` a direct base of `a`. -/
def RequestedEdge (es : List BaseRequest) (a b : ClassId) : Prop := (a, b) ∈ es.map (·.edge)

instance (es : List BaseRequest) (a b : ClassId) : Decidable (RequestedEdge es a b) :=
  inferInstanceAs (Decidable ((a, b) ∈ es.map (·.edge)))

namespace Hierarchy

variable {h h' : Hierarchy} {es es' : List BaseRequest} {a b : ClassId}

/-- Adds some bases one after the other, up to the first one that is refused. -/
def addBases (h : Hierarchy) (es : List BaseRequest) : Except HierarchyError Hierarchy :=
  es.foldlM (fun g e => g.addBase e.derived e.base e.access e.span) h

theorem addBases_eq_extend (h : Hierarchy) (es : List BaseRequest) :
    h.addBases es = h.extend (es.map (·.declaration)) := by
  unfold addBases extend
  rw [List.foldlM_map]
  congr
  funext g e
  show _ = ((g.addBase e.derived e.base e.access e.span).map fun r => (Declared.nothing, r)).map _
  cases g.addBase e.derived e.base e.access e.span <;> rfl

theorem owner?_of_mem_declarations {d : Declaration} (hd : d ∈ es.map (·.declaration)) :
    d.owner? ≠ none := by
  obtain ⟨e, -, rfl⟩ := List.mem_map.1 hd
  exact nofun

theorem extends_of_addBases (hok : h.addBases es = .ok h') :
    Extends h (es.map (·.declaration)) h' := by
  rw [addBases_eq_extend] at hok
  exact .of_extend hok fun _ => owner?_of_mem_declarations

/-! ## Acceptance -/

theorem filterMap_edge?_declarations (es : List BaseRequest) :
    (es.map (·.declaration)).filterMap Declaration.edge? = es.map (·.edge) := by
  rw [List.filterMap_map]
  exact congrFun List.filterMap_eq_map es

/-- **Classes without bases accept bases in full when there is no reason against all of them.** -/
theorem exists_addBases_iff (hw : h.WellFormed) (hs : h.Shallow)
    (hbare : ∀ c ∈ h.classes, c.bases = [])
    (hdeclared : ∀ e ∈ es, (∃ c, h.class? e.derived = some c) ∧ ∃ c, h.class? e.base = some c) :
    (∃ h', h.addBases es = .ok h') ↔
      (es.map (·.edge)).Nodup ∧ ∀ n a b, Chain (RequestedEdge es) n a b → n ≤ maxDepth := by
  have hno := not_directBase_of_bases_eq_nil fun _ c hc => hbare c (List.mem_of_getElem? hc)
  have hmembers : (es.map (·.declaration)).filterMap Declaration.member? = [] := by
    simp [BaseRequest.declaration, Declaration.member?]
  have hconstructors : (es.map (·.declaration)).filterMap Declaration.constructor? = [] := by
    simp [BaseRequest.declaration, Declaration.constructor?]
  have hnil := admissible_nil hw hs
  simp only [addBases_eq_extend]
  rw [exists_extend_iff hw hs fun _ => owner?_of_mem_declarations]
  constructor
  · intro hadm
    have hbounded := hadm.bounded
    have hnodup := hadm.edges_nodup
    simp only [filterMap_edge?_declarations, hno, false_or] at hbounded hnodup
    exact ⟨hnodup, hbounded⟩
  · rintro ⟨hnodup, hbounded⟩
    refine ⟨fun d hd => ?_, ?_, fun a b _ => hno a b, ?_, ?_, ?_⟩
    · obtain ⟨e, he, rfl⟩ := List.mem_map.1 hd
      exact hdeclared e he
    · rwa [filterMap_edge?_declarations]
    · simp only [filterMap_edge?_declarations, hno, false_or]
      exact hbounded
    · -- the requests bring no members and no constructors
      rw [hmembers]
      exact hnil.members_nodup
    · rw [hconstructors]
      exact hnil.constructors_nodup

/-! ## The bases of the resulting hierarchy -/

/-- Each class gets, at the end of its list, what the requests for it bring. -/
theorem bases_foldl_onClass (id : ClassId) (es : List BaseRequest) (c : ClassDecl) :
    ((es.map (·.declaration)).foldl (Declaration.onClass id) c).bases =
      c.bases ++ (es.filter fun e => id = e.derived).map (·.specifier) := by
  have hbases : (es.map (·.declaration)).filterMap Declaration.base? =
      es.map fun e => (e.derived, e.specifier) := by
    rw [List.filterMap_map]
    exact congrFun List.filterMap_eq_map' es
  have hshare : shareOf id (es.map fun e => (e.derived, e.specifier)) =
      (es.filter fun e => id = e.derived).map (·.specifier) := by
    rw [shareOf, List.filter_map, List.map_map]
    simp only [Function.comp_def, eq_comm]
  rw [foldl_onClass_eq_parts, hbases, hshare]

theorem mem_basesWhere_iff {keep : BaseSpecifier → Bool} :
    b ∈ h.basesWhere keep a ↔
      ∃ l, (h.class? a).map (·.bases) = some l ∧ ∃ s ∈ l, keep s = true ∧ s.base = b := by
  unfold basesWhere
  cases h.class? a <;> simp [and_assoc]

/-- **An edge of the resulting hierarchy was there before or is requested.** -/
theorem baseGraph_edge_iff_of_addBases (hok : h.addBases es = .ok h')
    (hdeclared : ∀ e ∈ es, ∃ c, h.class? e.derived = some c) (keep : BaseSpecifier → Bool) :
    (h'.baseGraph keep).Edge a b ↔
      (h.baseGraph keep).Edge a b ∨ ∃ e ∈ es, e.edge = (a, b) ∧ keep e.specifier = true := by
  have hbases : (h'.class? a).map (·.bases) = (h.class? a).map fun c =>
      c.bases ++ (es.filter fun e => a = e.derived).map (·.specifier) := by
    have hx := congrArg (Option.map (·.bases)) ((extends_of_addBases hok).unlisted a)
    rw [Option.map_map, Option.map_map] at hx
    refine hx.trans (Option.map_congr fun c _ => ?_)
    exact bases_foldl_onClass a es c.unlisted
  show b ∈ h'.basesWhere keep a ↔ b ∈ h.basesWhere keep a ∨ _
  rw [mem_basesWhere_iff, mem_basesWhere_iff, hbases]
  cases hc : h.class? a with
  | none =>
    have hnot : ∀ e ∈ es, e.edge ≠ (a, b) := by
      rintro e he heq
      obtain ⟨c, hd⟩ := hdeclared e he
      rw [(Prod.mk.inj heq).1, hc] at hd
      cases hd
    simp only [Option.map_none, reduceCtorEq, false_and, exists_false, false_or, false_iff]
    rintro ⟨e, he, heq, -⟩
    exact hnot e he heq
  | some c =>
    simp only [Option.map_some, Option.some.injEq, exists_eq_left', List.mem_append, or_and_right,
      exists_or]
    refine or_congr_right ?_
    simp only [List.mem_map, List.mem_filter, decide_eq_true_eq, BaseRequest.edge, Prod.mk.injEq]
    constructor
    · rintro ⟨_, ⟨e, ⟨he, ha⟩, rfl⟩, hkeep, hb⟩
      exact ⟨e, he, ⟨ha.symm, hb⟩, hkeep⟩
    · rintro ⟨e, he, ⟨ha, hb⟩, hkeep⟩
      exact ⟨_, ⟨e, ⟨he, ha.symm⟩, rfl⟩, hkeep, hb⟩

/-- The same requests in another order make the same graph. -/
theorem reaches_eq_of_addBases_perm {h₁ h₂ : Hierarchy} (hok : h.addBases es = .ok h₁)
    (hok' : h.addBases es' = .ok h₂) (hp : es.Perm es')
    (hdeclared : ∀ e ∈ es, ∃ c, h.class? e.derived = some c) (keep : BaseSpecifier → Bool) :
    (h₂.baseGraph keep).reaches a b = (h₁.baseGraph keep).reaches a b := by
  have hdeclared' : ∀ e ∈ es', ∃ c, h.class? e.derived = some c := fun e he =>
    hdeclared e (hp.mem_iff.2 he)
  refine Digraph.reaches_congr fun x y => ?_
  rw [baseGraph_edge_iff_of_addBases hok' hdeclared',
    baseGraph_edge_iff_of_addBases hok hdeclared]
  simp only [hp.mem_iff]

/--
**When a list of bases is accepted, in whatever order.** For classes without bases, all requests
are accepted exactly when their edges are pairwise distinct, make no cycle and have no chain beyond
the limit. So a list that is accepted in full is accepted in full in every order, and then the same
classes derive from each other, with the same accessible bases.
-/
theorem addBases_spec (hr : h.Reachable) (hbare : ∀ c ∈ h.classes, c.bases = [])
    (es : List BaseRequest)
    (hdeclared : ∀ e ∈ es, (∃ c, h.class? e.derived = some c) ∧ ∃ c, h.class? e.base = some c) :
    ((∃ h', h.addBases es = .ok h') ↔
      (es.map (·.edge)).Nodup ∧ Acyclic (RequestedEdge es) ∧
        ∀ n a b, Chain (RequestedEdge es) n a b → n ≤ maxDepth) ∧
    ∀ h₁, h.addBases es = .ok h₁ → ∀ es', es.Perm es' → ∃ h₂, h.addBases es' = .ok h₂ ∧
      (∀ a b, h₂.isDerivedFrom a b = h₁.isDerivedFrom a b) ∧
      ∀ a b, h₂.isAccessibleBase a b = h₁.isAccessibleBase a b := by
  have hw := hr.wellFormed
  have hs := hr.shallow
  refine ⟨?_, fun h₁ hok es' hp => ?_⟩
  · rw [exists_addBases_iff hw hs hbare hdeclared]
    -- a bound on all chains leaves no room for a cycle
    exact and_congr_right fun _ => ⟨fun hb => ⟨acyclic_of_bounded hb, hb⟩, And.right⟩
  · have hdeclared' : ∀ e ∈ es', (∃ c, h.class? e.derived = some c) ∧
        ∃ c, h.class? e.base = some c := fun e he => hdeclared e (hp.mem_iff.2 he)
    obtain ⟨hnodup, hbounded⟩ := (exists_addBases_iff hw hs hbare hdeclared).1 ⟨h₁, hok⟩
    have hsame : RequestedEdge es' = RequestedEdge es := by
      funext a b
      exact propext (hp.map _).mem_iff.symm
    obtain ⟨h₂, hok'⟩ := (exists_addBases_iff hw hs hbare hdeclared').2
      ⟨(hp.map _).nodup_iff.1 hnodup, by rwa [hsame]⟩
    have hderived : ∀ e ∈ es, ∃ c, h.class? e.derived = some c := fun e he => (hdeclared e he).1
    exact ⟨h₂, hok', fun a b => reaches_eq_of_addBases_perm hok hok' hp hderived _,
      fun a b => reaches_eq_of_addBases_perm hok hok' hp hderived _⟩

/-- A chain of three classes, from the top down and from the bottom up, and an edge closing it. -/
theorem addBases_spec_three_classes :
    let h := Hierarchy.empty.run [.newClass "First" .unknown, .newClass "Second" .unknown,
      .newClass "Third" .unknown]
    let es : List BaseRequest := [⟨⟨1⟩, ⟨0⟩, .publicAccess, .unknown⟩,
      ⟨⟨2⟩, ⟨1⟩, .privateAccess, .unknown⟩]
    h.Reachable ∧ (∀ c ∈ h.classes, c.bases = []) ∧
      (∃ h₁ h₂, h.addBases es = .ok h₁ ∧ h.addBases es.reverse = .ok h₂ ∧
        ∀ a b, h₂.isDerivedFrom a b = h₁.isDerivedFrom a b) ∧
      ¬ ∃ h', h.addBases (es ++ [⟨⟨0⟩, ⟨2⟩, .publicAccess, .unknown⟩]) = .ok h' := by
  intro h es
  have hr : h.Reachable := ⟨_, rfl⟩
  have hbare : ∀ c ∈ h.classes, c.bases = [] := by decide
  have hclass {id : ClassId} (hid : id.index < 3) : ∃ c, h.class? id = some c :=
    exists_class?_iff.2 hid
  have hdeclared (es' : List BaseRequest)
      (hes : ∀ e ∈ es', e.derived.index < 3 ∧ e.base.index < 3) :
      ∀ e ∈ es', (∃ c, h.class? e.derived = some c) ∧ ∃ c, h.class? e.base = some c :=
    fun e he => ⟨hclass (hes e he).1, hclass (hes e he).2⟩
  obtain ⟨haccept, hperm⟩ := addBases_spec hr hbare es (hdeclared es (by decide))
  -- every edge leads to the class before, so a chain is no longer than the number of its start
  have hdescend {n : Nat} {a b : ClassId} (hc : Chain (RequestedEdge es) n a b) :
      n + b.index = a.index := by
    induction hc with
    | nil => exact Nat.zero_add _
    | @cons n a c b hac _ ih =>
      have hstep : c.index + 1 = a.index := by
        rcases List.mem_cons.1 hac with heq | hac
        · cases heq; rfl
        · cases List.mem_singleton.1 hac; rfl
      omega
  have hlow {n : Nat} {a b : ClassId} (hc : Chain (RequestedEdge es) n a b) :
      n = 0 ∨ a.index < 3 := by
    cases hc with
    | nil => exact Or.inl rfl
    | cons hac =>
      rcases List.mem_cons.1 hac with heq | hac
      · cases heq; exact Or.inr (by decide)
      · cases List.mem_singleton.1 hac; exact Or.inr (by decide)
  have hbounded (n : Nat) (a b : ClassId) (hc : Chain (RequestedEdge es) n a b) : n ≤ maxDepth := by
    have hn := hdescend hc
    rcases hlow hc with rfl | ha
    · exact Nat.zero_le _
    · have : 2 ≤ maxDepth := by decide
      omega
  obtain ⟨h₁, hok⟩ := haccept.2 ⟨by decide, acyclic_of_bounded hbounded, hbounded⟩
  obtain ⟨h₂, hok', hsame, -⟩ := hperm h₁ hok es.reverse (List.reverse_perm es).symm
  refine ⟨hr, hbare, ⟨h₁, h₂, hok, hok', hsame⟩, ?_⟩
  intro hclosed
  obtain ⟨-, hacyclic, -⟩ := (addBases_spec hr hbare _ (hdeclared _ (by decide))).1.1 hclosed
  exact hacyclic 2 ⟨0⟩ (.cons (b := ⟨2⟩) (by decide) (.cons (b := ⟨1⟩) (by decide)
    (.single (by decide))))

end Hierarchy

end ConstructorCheck
