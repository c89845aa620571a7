import ConstructorCheck.Proofs.Check.Order
import ConstructorCheck.Proofs.Check.Targets
import ConstructorCheck.Proofs.Fixture.Spans
/-!
# One batch for the whole program

A run checks the definitions and the default-constructed classes in two batches, each of which comes
out sorted, and sorts the results once more. The report is that of a single batch with all sites,
those of the definitions first.

* `Program.findings_eq_ok_iff` — two batches find what one batch with the sites of both finds
* `Fixture.run_congr` — a run does not depend on how sites are split among workers
* `Fixture.lines_sorted` — findings that are sorted stand on lines in order
* `Fixture.run_eq_one_batch` — the report of a run
-/

namespace ConstructorCheck

namespace Hierarchy

variable {h : Hierarchy} {o : Options} {sites sites' : List Site} {xs ys : List Finding}

theorem findingsAt_append (h : Hierarchy) (sites sites' : List Site) :
    h.findingsAt (sites ++ sites') = h.findingsAt sites ++ h.findingsAt sites' :=
  List.filterMap_append

/-- Two batches find what one batch with the sites of both finds. -/
theorem checkSites_append_eq_ok_iff [ParallelMap] : h.checkSites o (sites ++ sites') = .ok xs ↔
    ∃ ys zs, h.checkSites o sites = .ok ys ∧ h.checkSites o sites' = .ok zs ∧
      xs = Finding.sort (ys ++ zs) := by
  simp only [checkSites_eq_ok_iff, List.forall_mem_append, findingsAt_append]
  constructor
  · rintro ⟨⟨hall, hall'⟩, rfl⟩
    exact ⟨_, _, ⟨hall, rfl⟩, ⟨hall', rfl⟩, (Finding.sort_append_sort _ _).symm⟩
  · rintro ⟨_, _, ⟨hall, rfl⟩, ⟨hall', rfl⟩, rfl⟩
    exact ⟨⟨hall, hall'⟩, Finding.sort_append_sort _ _⟩

end Hierarchy

/-- **The findings in a program are those of one batch with all its sites.** -/
theorem Program.findings_eq_ok_iff [ParallelMap] {p : Program} {o : Options} {name : String}
    {xs : List Finding} : p.findings o name = .ok xs ↔
      ∃ sites sites', p.definitions.mapM p.hierarchy.sitesOf = .ok sites ∧
        p.defaultConstructed.mapM p.hierarchy.implicitSitesOf = .ok sites' ∧
          p.hierarchy.checkSites o (sites.flatten ++ sites'.flatten) = .ok xs := by
  simp only [findings, bind_eq_ok_iff, mapError_eq_ok_iff, Hierarchy.checkDefinitions,
    Hierarchy.checkImplicitDefaults, Hierarchy.checkSites_append_eq_ok_iff]
  constructor
  · rintro ⟨ys, ⟨sites, hsites, hys⟩, zs, ⟨sites', hsites', hzs⟩, hxs⟩
    exact ⟨sites, sites', hsites, hsites', ys, zs, hys, hzs, (Except.ok.inj hxs).symm⟩
  · rintro ⟨sites, sites', hsites, hsites', ys, zs, hys, hzs, rfl⟩
    exact ⟨ys, ⟨sites, hsites, hys⟩, zs, ⟨sites', hsites', hzs⟩, rfl⟩

/-- They do not depend on how the sites are split among workers. -/
theorem Program.findings_congr {p : Program} (hw : p.hierarchy.WellFormed) (m m' : ParallelMap)
    (o o' : Options) (name : String) : @findings m p o name = @findings m' p o' name := by
  unfold findings
  rw [Hierarchy.checkDefinitions_congr hw m m' o o',
    Hierarchy.checkImplicitDefaults_congr hw m m' o o']

/-! ## The report of a run -/

namespace Fixture

variable {fixture : Fixture} {f : SourceFile} {p : Program} {name : String} {o : Outcome}

theorem run_of_program [ParallelMap] (hp : fixture.program f = .ok p) :
    fixture.run name f = (p.findings fixture.options name).map fun xs =>
      ⟨name, fixture.description, f, fixture.expected,
        xs.map (f.reported p.hierarchy fixture.options)⟩ := by
  rw [run, hp]
  rfl

/--
**What becomes of a fixture does not depend on how sites are split among workers**, nor on whether
they are: other options make no difference as long as they agree on whether there are notes.
-/
theorem run_congr (m m' : ParallelMap) (fixture : Fixture) (f : SourceFile) (name : String)
    {o : Options} (hnotes : o.relatedInformation = fixture.options.relatedInformation) :
    @run m fixture name f = @run m' { fixture with options := o } name f := by
  have hsame : Fixture.program { fixture with options := o } f = fixture.program f := rfl
  cases hp : fixture.program f with
  | error e =>
    unfold run
    rw [hsame, hp]
    rfl
  | ok p =>
    obtain ⟨hhierarchy, -, -⟩ := program_eq_ok hp
    have hw := (reachable_of_hierarchy hhierarchy).wellFormed
    have hreported : f.reported p.hierarchy fixture.options = f.reported p.hierarchy o :=
      funext fun x => by rw [SourceFile.reported, SourceFile.reported, hnotes]
    rw [@run_of_program _ _ _ _ m hp, @run_of_program _ _ _ _ m' (hsame.trans hp), hreported,
      Program.findings_congr hw m m' fixture.options o]

/-- **Findings in order stand on lines in order.** -/
theorem lines_sorted [ParallelMap] (hp : fixture.program f = .ok p) {xs : List Finding}
    (hxs : p.findings fixture.options name = .ok xs) :
    (xs.map fun x => f.lineOf x.location.start).Pairwise (· ≤ ·) := by
  have hsorted : xs.Pairwise fun x y => (Finding.order x y).isLE = true := by
    obtain ⟨_, _, -, -, hcheck⟩ := Program.findings_eq_ok_iff.1 hxs
    rw [(Hierarchy.checkSites_eq_ok_iff.1 hcheck).2]
    exact Finding.sort_sorted _
  refine List.pairwise_map.2 (hsorted.imp_of_mem fun {x y} hx hy hle => ?_)
  -- all places of a fixture are in one file
  have hfile : x.location.file = y.location.file := by
    rw [(spanOf_location hp hxs hx).file_eq, (spanOf_location hp hxs hy).file_eq]
  have hstart : x.location.start ≤ y.location.start := by
    rcases Span.isLE_compare_iff.1 (Finding.location_isLE_of_order hle) with hlt | ⟨-, hlex⟩
    · exact absurd hfile (Nat.ne_of_lt hlt)
    · omega
  exact Nat.succ_le_succ (Text.LineMap.lineAt_mono f.text hstart)

/--
**The report of a run is that of one batch.** Its sites are those of all definitions, in the order
of the fixture, and after them those of all default-constructed classes. Checking the two parts one
by one and sorting what they find together comes to the same findings in the same order. They are
reported one by one, in words and on their lines, and the lines do not go back.
-/
theorem run_eq_one_batch [ParallelMap] (hrun : fixture.run name f = .ok o) :
    ∃ p sites sites' xs, fixture.program f = .ok p ∧
      fixture.definitions.mapM (DefinitionSpec.definition f p.hierarchy) = .ok p.definitions ∧
      fixture.defaultConstructed.mapM p.hierarchy.namedClass = .ok p.defaultConstructed ∧
      p.definitions.mapM p.hierarchy.sitesOf = .ok sites ∧
      p.defaultConstructed.mapM p.hierarchy.implicitSitesOf = .ok sites' ∧
      p.hierarchy.checkSites fixture.options (sites.flatten ++ sites'.flatten) = .ok xs ∧
      (∃ ys zs, p.hierarchy.checkDefinitions fixture.options p.definitions = .ok ys ∧
        p.hierarchy.checkImplicitDefaults fixture.options p.defaultConstructed = .ok zs ∧
        Finding.sort (ys ++ zs) = xs) ∧
      (o.reported = xs.map fun x => ⟨x.kind, f.lineOf x.location.start,
        p.hierarchy.diagnostic (fun _ => f.name) fixture.options.relatedInformation x⟩) ∧
      (o.reported.map (·.line)).Pairwise (· ≤ ·) := by
  obtain ⟨p, xs, hp, hxs, rfl⟩ := run_eq_ok_iff.1 hrun
  obtain ⟨-, hdefinitions, hdefault⟩ := program_eq_ok hp
  obtain ⟨sites, sites', hsites, hsites', hcheck⟩ := Program.findings_eq_ok_iff.1 hxs
  refine ⟨p, sites, sites', xs, hp, mapM_eq_ok_iff.2 hdefinitions, mapM_eq_ok_iff.2 hdefault,
    hsites, hsites', hcheck, ?_, rfl, ?_⟩
  · obtain ⟨ys, hys, hrest⟩ := bind_eq_ok_iff.1 hxs
    obtain ⟨zs, hzs, hsort⟩ := bind_eq_ok_iff.1 hrest
    exact ⟨ys, zs, mapError_eq_ok_iff.1 hys, mapError_eq_ok_iff.1 hzs, Except.ok.inj hsort⟩
  · rw [List.map_map]
    exact lines_sorted hp hxs

/--
Two members without initializers, of a class whose constructor is private. The definition and the
implicit default constructor stand at one place, so the findings of the two batches tie: those of
the definition are reported first.
-/
theorem run_eq_one_batch_tied :
    let fixture : Fixture := {
      description := "two parts", source := "whole.cpp", options := .default
      classes := [⟨"Part", none, [], [], [⟨.privateAccess, [], none⟩], none⟩,
        ⟨"Whole", some ⟨2, 1, 5⟩, [], [⟨"left", "Part", .publicAccess, none, none⟩,
          ⟨"right", "Part", .publicAccess, none, none⟩], [], none⟩]
      definitions := [⟨"Whole", none, ⟨2, 1, 5⟩, []⟩]
      defaultConstructed := ["Whole"], expected := [] }
    let f : SourceFile := ⟨"whole.cpp", ['a', '\n', 'W', 'h', 'o', 'l', 'e']⟩
    let x (id : Nat) : Finding := .inaccessible ⟨⟨1⟩, .member ⟨id⟩, none, ⟨0, 2, 7⟩⟩
      ⟨.declared ⟨0⟩, ⟨0⟩, .privateAccess, []⟩
    (x 0).key = (x 1).key ∧ ∃ (o : Outcome) (p : Program) (sites sites' : List (List Site)),
      fixture.run "whole" f = .ok o ∧ fixture.program f = .ok p ∧
      sites.flatten.map (·.subject) = [.member ⟨0⟩, .member ⟨1⟩] ∧
      sites'.flatten.map (·.subject) = [.member ⟨0⟩, .member ⟨1⟩] ∧
      p.hierarchy.checkSites fixture.options (sites.flatten ++ sites'.flatten) =
        .ok [x 0, x 1, x 0, x 1] ∧
      o.reported = [x 0, x 1, x 0, x 1].map (f.reported p.hierarchy fixture.options) ∧
      o.reported.map (fun r => (r.kind, r.line)) =
        List.replicate 4 (.inaccessibleConstructor, 2) := by
  intro fixture f x
  have hrun : (fixture.run "whole" f).toOption.isSome = true := by decide +kernel +zetaReduce
  have hsites : ((fixture.program f).toOption.bind fun p =>
      (p.definitions.mapM p.hierarchy.sitesOf).toOption.bind fun sites =>
        (p.defaultConstructed.mapM p.hierarchy.implicitSitesOf).toOption.map fun sites' =>
          (sites.flatten.map (·.subject), sites'.flatten.map (·.subject),
            p.hierarchy.findingsAt (sites.flatten ++ sites'.flatten))) =
      some ([.member ⟨0⟩, .member ⟨1⟩], [.member ⟨0⟩, .member ⟨1⟩], [x 0, x 1, x 0, x 1]) := by
    decide +kernel +zetaReduce
  cases ho : fixture.run "whole" f with
  | error e => rw [ho] at hrun; cases hrun
  | ok o =>
    obtain ⟨p, sites, sites', xs, hp, -, -, hsites₁, hsites₂, hcheck, -, hreported, -⟩ :=
      run_eq_one_batch ho
    simp only [hp, hsites₁, hsites₂, Except.toOption, Option.bind_some, Option.map_some,
      Option.some.injEq, Prod.mk.injEq] at hsites
    obtain ⟨hsubjects, hsubjects', hfound⟩ := hsites
    -- the findings have one key, so sorting leaves them in the order of the sites
    have hsorted : [x 0, x 1, x 0, x 1].Pairwise fun x y =>
        (Finding.keyOrder x.key y.key).isLE = true := by decide
    have hxs := (Hierarchy.checkSites_eq_ok_iff.1 hcheck).2
    rw [hfound, Finding.sort_of_sorted hsorted] at hxs
    subst hxs
    refine ⟨rfl, o, p, sites, sites', rfl, hp, hsubjects, hsubjects', hcheck, hreported, ?_⟩
    rw [hreported, List.map_map]
    show [x 0, x 1, x 0, x 1].map (fun y => (y.kind, f.lineOf y.location.start)) =
      List.replicate 4 (.inaccessibleConstructor, 2)
    decide +kernel +zetaReduce

end Fixture

end ConstructorCheck
