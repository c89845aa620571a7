import Mathlib
import ConstructorCheck.Proofs.Fixture.ClassOrder
import ConstructorCheck.Proofs.Fixture.Lines
import ConstructorCheck.Proofs.Fixture.Matching
import ConstructorCheck.Proofs.Renaming.Batch
/-!
# The order of the parts of a fixture

A fixture lists its classes, its definitions, the initializers of each definition, the classes that
it default-constructs, and what it expects. In another order these lists describe the same program
under other ids, and the verdict on the fixture is the same.

* `Fixture.Reorders` — the same fixture with its lists in another order
* `exists_program` — its program is the same under new ids
* `exists_run` — the same kinds are reported on the same lines
* `run_of_reorders` — so the verdict is the same
-/

namespace ConstructorCheck

/-! ## The same fixture in another order -/

/-- The same definition with its initializers in another order. -/
def DefinitionSpec.Reorders (d d' : DefinitionSpec) : Prop :=
  ∃ is, d.initializers.Perm is ∧ d' = { d with initializers := is }

/-- The same fixture with its lists in another order. -/
structure Fixture.Reorders (x y : Fixture) : Prop where
  description : x.description = y.description
  source : x.source = y.source
  options : x.options = y.options
  classes : x.classes.Perm y.classes
  definitions : ∃ ds, x.definitions.Perm ds ∧ List.Forall₂ DefinitionSpec.Reorders ds y.definitions
  defaultConstructed : x.defaultConstructed.Perm y.defaultConstructed
  expected : x.expected.Perm y.expected

theorem DefinitionSpec.Reorders.symm {d d' : DefinitionSpec} (hd : d.Reorders d') :
    d'.Reorders d := by
  obtain ⟨is, his, rfl⟩ := hd
  exact ⟨d.initializers, his.symm, rfl⟩

theorem Fixture.Reorders.symm {x y : Fixture} (hxy : x.Reorders y) : y.Reorders x where
  description := hxy.description.symm
  source := hxy.source.symm
  options := hxy.options.symm
  classes := hxy.classes.symm
  definitions := by
    obtain ⟨ds, hp, hds⟩ := hxy.definitions
    obtain ⟨ds', hds', hp'⟩ := List.perm_comp_forall₂ hp hds
    exact ⟨ds', hp'.symm, List.Forall₂.flip (hds'.imp fun _ _ hd => hd.symm)⟩
  defaultConstructed := hxy.defaultConstructed.symm
  expected := hxy.expected.symm

/-! ## Its program -/

/-- With its initializers in another order, a definition has its entries in another order. -/
theorem DefinitionSpec.Reorders.exists_definition {spec spec' : DefinitionSpec} {f : SourceFile}
    {h : Hierarchy} {d : Definition} (hspec : spec.Reorders spec')
    (hok : spec.definition f h = .ok d) : ∃ d', spec'.definition f h = .ok d' ∧ d.Reorders d' := by
  obtain ⟨is, his, rfl⟩ := hspec
  obtain ⟨owner, howner, hok⟩ := bind_eq_ok_iff.1 hok
  obtain ⟨bodyOpen, hbody, hok⟩ := bind_eq_ok_iff.1 hok
  obtain ⟨initializerList?, hlist, hok⟩ := bind_eq_ok_iff.1 hok
  obtain ⟨entries, hentries, hok⟩ := bind_eq_ok_iff.1 hok
  cases hok
  obtain ⟨es, hes, hperm⟩ := mapM_perm his hentries
  refine ⟨⟨owner, initializerList?, bodyOpen, es⟩, ?_, es, hperm, rfl⟩
  exact bind_eq_ok_iff.2 ⟨owner, howner, bind_eq_ok_iff.2 ⟨bodyOpen, hbody,
    bind_eq_ok_iff.2 ⟨initializerList?, hlist, bind_eq_ok_iff.2 ⟨es, hes, rfl⟩⟩⟩⟩

/-- The same program under new ids, with its lists in another order. -/
structure Renaming.Reorders (ρ : Renaming) (p q : Program) : Prop where
  hierarchy : ρ.Renames p.hierarchy q.hierarchy
  definitions : ∃ ds, (p.definitions.map ρ.definition).Perm ds ∧
    List.Forall₂ Definition.Reorders ds q.definitions
  defaultConstructed : (p.defaultConstructed.map ρ.ofClass).Perm q.defaultConstructed

/-- The same program under new ids has the same findings under new ids. -/
theorem Renaming.Reorders.exists_findings [ParallelMap] {ρ : Renaming} {p q : Program}
    (hpq : ρ.Reorders p q) {options : Options} {name : String} {xs : List Finding}
    (hok : p.findings options name = .ok xs) :
    ∃ ys, q.findings options name = .ok ys ∧ (xs.map ρ.finding).Perm ys := by
  obtain ⟨xs₁, hxs₁, hok⟩ := bind_eq_ok_iff.1 hok
  obtain ⟨xs₂, hxs₂, hok⟩ := bind_eq_ok_iff.1 hok
  rw [mapError_eq_ok_iff] at hxs₁ hxs₂
  cases hok
  obtain ⟨ds, hp, hds⟩ := hpq.definitions
  obtain ⟨ys₁, hys₁, hperm₁⟩ := hpq.hierarchy.checkDefinitions hp hds hxs₁
  obtain ⟨ys₂, hys₂, hperm₂⟩ := hpq.hierarchy.checkImplicitDefaults hpq.defaultConstructed hxs₂
  refine ⟨Finding.sort (ys₁ ++ ys₂), bind_eq_ok_iff.2 ⟨ys₁, mapError_eq_ok_iff.2 hys₁,
    bind_eq_ok_iff.2 ⟨ys₂, mapError_eq_ok_iff.2 hys₂, rfl⟩⟩, ?_⟩
  refine ((Hierarchy.sort_perm _).map ρ.finding).trans ?_
  rw [List.map_append]
  exact (hperm₁.append hperm₂).trans (Hierarchy.sort_perm _).symm

namespace Fixture.Reorders

variable {x y : Fixture} {f : SourceFile} {name : String} {o : Outcome}

/-- **In another order a fixture describes the same program under new ids.** -/
theorem exists_program (hxy : x.Reorders y) {p : Program} (hok : x.program f = .ok p) :
    ∃ q, y.program f = .ok q ∧ ∃ ρ : Renaming, ρ.Reorders p q := by
  obtain ⟨h, hh, hok⟩ := bind_eq_ok_iff.1 hok
  obtain ⟨ds, hds, hok⟩ := bind_eq_ok_iff.1 hok
  obtain ⟨ids, hids, hok⟩ := bind_eq_ok_iff.1 hok
  cases hok
  obtain ⟨h', hh', ρ, hr⟩ := exists_hierarchy_of_perm hxy.classes hh
  -- definitions: first under new ids, then in another order, then their initializers
  have hrenamed : x.definitions.mapM (DefinitionSpec.definition f h') =
      .ok (ds.map ρ.definition) := by
    rw [relabel_mapM hr.specDefinition, hds]
    rfl
  obtain ⟨specs, hspecs, hreorders⟩ := hxy.definitions
  obtain ⟨ds₁, hds₁, hperm⟩ := mapM_perm hspecs hrenamed
  obtain ⟨ds', hds', hall⟩ := mapM_forall₂ hreorders
    (fun hspec hd => DefinitionSpec.Reorders.exists_definition hspec hd) hds₁
  have hrenamedIds : x.defaultConstructed.mapM h'.namedClass = .ok (ids.map ρ.ofClass) := by
    rw [relabel_mapM hr.namedClass, hids]
    rfl
  obtain ⟨ids', hids', hpermIds⟩ := mapM_perm hxy.defaultConstructed hrenamedIds
  exact ⟨⟨h', ds', ids'⟩, bind_eq_ok_iff.2 ⟨h', hh', bind_eq_ok_iff.2 ⟨ds', hds',
    bind_eq_ok_iff.2 ⟨ids', hids', rfl⟩⟩⟩, ρ, hr, ⟨ds₁, hperm, hall⟩, hpermIds⟩

/-- **In another order a fixture has the same kinds reported on the same lines.** -/
theorem exists_run [ParallelMap] (hxy : x.Reorders y) (hrun : x.run name f = .ok o) :
    ∃ o', y.run name f = .ok o' ∧ o.keys.Perm o'.keys := by
  obtain ⟨p, xs, hp, hxs, rfl⟩ := Fixture.run_eq_ok_iff.1 hrun
  obtain ⟨q, hq, ρ, hpq⟩ := hxy.exists_program hp
  rw [hxy.options] at hxs
  obtain ⟨ys, hys, hperm⟩ := hpq.exists_findings hxs
  refine ⟨_, run_eq_ok_iff.2 ⟨q, ys, hq, hys, rfl⟩, ?_⟩
  -- kinds and locations stay under new ids
  have hkeys := hperm.map fun z => (f.reported q.hierarchy y.options z).key
  rw [List.map_map] at hkeys
  rw [Outcome.keys, Outcome.keys, List.map_map, List.map_map]
  exact hkeys

end Fixture.Reorders

namespace Fixture

theorem expected_of_run [ParallelMap] {x : Fixture} {f : SourceFile} {name : String} {o : Outcome}
    (hrun : x.run name f = .ok o) : o.expected = x.expected := by
  obtain ⟨-, -, -, -, rfl⟩ := run_eq_ok_iff.1 hrun
  rfl

/--
**The order of the parts of a fixture does not matter.** A fixture can be run when it can be run in
another order. Then a kind of finding is reported on a line, is missing there and is unexpected
there as often as before, and the fixture passes when it passed before.
-/
theorem run_of_reorders [ParallelMap] {x y : Fixture} (hxy : x.Reorders y) (name : String)
    (f : SourceFile) :
    ((∃ o, x.run name f = .ok o) ↔ ∃ o, y.run name f = .ok o) ∧
      ∀ o o', x.run name f = .ok o → y.run name f = .ok o' →
        o.keys.Perm o'.keys ∧ o.missing.Perm o'.missing ∧ o.unexpected.Perm o'.unexpected ∧
          o.passed = o'.passed := by
  constructor
  · constructor
    · rintro ⟨o, ho⟩
      obtain ⟨o', ho', -⟩ := hxy.exists_run ho
      exact ⟨o', ho'⟩
    · rintro ⟨o', ho'⟩
      obtain ⟨o, ho, -⟩ := hxy.symm.exists_run ho'
      exact ⟨o, ho⟩
  · intro o o' ho ho'
    obtain ⟨o₁, ho₁, hkeys⟩ := hxy.exists_run ho
    cases ho'.symm.trans ho₁
    have hexpected : o.expected.Perm o'.expected := by
      rw [expected_of_run ho, expected_of_run ho']
      exact hxy.expected
    have hmissing : o.missing.Perm o'.missing := unmatched_perm hkeys hexpected
    have hunexpected : o.unexpected.Perm o'.unexpected := unmatched_perm hexpected hkeys
    refine ⟨hkeys, hmissing, hunexpected, ?_⟩
    rw [Outcome.passed, Outcome.passed, hmissing.isEmpty_eq, hunexpected.isEmpty_eq]

/--
A class before its base and the class of its members, and after them. The construction in line 2 is
expected; of the other expectations there are two in either order.
-/
theorem run_of_reorders_whole_first :
    let part : ClassSpec := ⟨"Part", none, [], [], [⟨.privateAccess, [], none⟩], none⟩
    let plain : ClassSpec := ⟨"Plain", none, [], [], [], none⟩
    let whole : ClassSpec := ⟨"Whole", none, [⟨"Plain", .publicAccess, none⟩],
      [⟨"left", "Part", .publicAccess, none, none⟩, ⟨"right", "Part", .publicAccess, none, none⟩],
      [], none⟩
    let left : InitializerSpec := ⟨"left", [], ⟨2, 1, 1⟩⟩
    let right : InitializerSpec := ⟨"right", ["int"], ⟨3, 1, 1⟩⟩
    let x : Fixture := {
      description := "part and whole", source := "whole.cpp", options := .default
      classes := [whole, part, plain]
      definitions := [⟨"Whole", none, ⟨1, 1, 1⟩, [left, right]⟩, ⟨"Plain", none, ⟨1, 1, 1⟩, []⟩]
      defaultConstructed := ["Whole", "Plain"]
      expected := [⟨.inaccessibleConstructor, 2⟩, ⟨.ambiguousConstructor, 3⟩,
        ⟨.ambiguousConstructor, 4⟩] }
    let y : Fixture := { x with
      classes := [plain, part, whole]
      definitions := [⟨"Plain", none, ⟨1, 1, 1⟩, []⟩, ⟨"Whole", none, ⟨1, 1, 1⟩, [right, left]⟩]
      defaultConstructed := ["Plain", "Whole"]
      expected := x.expected.reverse }
    let f : SourceFile := ⟨"whole.cpp", ['a', '\n', 'b', '\n', 'c', '\n', 'd']⟩
    x.Reorders y ∧ ∃ o o', x.run "whole" f = .ok o ∧ y.run "whole" f = .ok o' ∧
      (o.keys.Perm o'.keys ∧ o.missing.Perm o'.missing ∧ o.unexpected.Perm o'.unexpected ∧
        o.passed = o'.passed) ∧
      o.missing = [⟨.ambiguousConstructor, 3⟩, ⟨.ambiguousConstructor, 4⟩] ∧
      o'.missing = [⟨.ambiguousConstructor, 4⟩, ⟨.ambiguousConstructor, 3⟩] := by
  intro part plain whole left right x y f
  have hxy : x.Reorders y := {
    description := rfl
    source := rfl
    options := rfl
    classes := by decide +zetaReduce
    definitions := ⟨[⟨"Plain", none, ⟨1, 1, 1⟩, []⟩, ⟨"Whole", none, ⟨1, 1, 1⟩, [left, right]⟩],
      List.Perm.swap .., .cons ⟨[], .nil, rfl⟩ (.cons ⟨[right, left], List.Perm.swap .., rfl⟩ .nil)⟩
    defaultConstructed := List.Perm.swap ..
    expected := (List.reverse_perm _).symm }
  have hmissing : (x.run "whole" f).toOption.map (·.missing) =
      some [⟨.ambiguousConstructor, 3⟩, ⟨.ambiguousConstructor, 4⟩] := by cbv
  have hmissing' : (y.run "whole" f).toOption.map (·.missing) =
      some [⟨.ambiguousConstructor, 4⟩, ⟨.ambiguousConstructor, 3⟩] := by cbv
  obtain ⟨o, ho, hmissing⟩ := Option.map_eq_some_iff.1 hmissing
  obtain ⟨o', ho', hmissing'⟩ := Option.map_eq_some_iff.1 hmissing'
  rw [toOption_eq_some_iff] at ho ho'
  exact ⟨hxy, o, o', ho, ho', (run_of_reorders hxy "whole" f).2 o o' ho ho', hmissing, hmissing'⟩

end Fixture

end ConstructorCheck
