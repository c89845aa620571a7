import ConstructorCheck.Fixture.Outcome
import ConstructorCheck.Proofs.Check.Batch
import ConstructorCheck.Proofs.Check.Definition
import ConstructorCheck.Proofs.Fixture.Program
/-!
# The lines of a report

A fixture writes down where each construction of its program stands. The checker gets spans, not
lines: the places are turned into offsets, the offsets go through the hierarchy, the definitions,
the sites and the findings, and at the end they are turned into lines again. Every finding comes
out on the line that the fixture wrote down.

* `DefinitionSpec.lineFor` — the line that a definition writes down for a base or a member
* `Fixture.defaultLine` — the line that is written down for an implicit default constructor
* `Fixture.written` — the findings on these lines
* `Fixture.run_eq_ok_iff` — what becomes of a fixture that can be run
* `run_reported_on_written_lines` — this is the report, in some order
-/

namespace ConstructorCheck

variable {f : SourceFile} {h : Hierarchy}

/-! ## What a fixture writes down -/

/--
The line of the initializer of a subject. Without one, the line where the initializer list begins,
or the body when there is no list.
-/
def DefinitionSpec.lineFor (h : Hierarchy) (owner : ClassId) (d : DefinitionSpec) (su : Subject) :
    Nat :=
  match d.initializers.find? fun i => h.subjectOf? owner i.name = some su with
  | some i => i.place.line
  | none => (d.initializerList?.getD d.bodyOpen).line

/-- The line of the implicit default constructor of the class with a name. -/
def Fixture.defaultLine (fixture : Fixture) (name : String) : Nat :=
  ((fixture.classes.find? fun c => c.name = name).map (·.defaultLine)).getD 1

/--
What is found in the program of a fixture, definition by definition and then class by class, each
finding on the line that is written down for its construction.
-/
def Fixture.written (fixture : Fixture) (f : SourceFile) (p : Program) : List Reported :=
  let report (line : Nat) (x : Finding) : Reported :=
    ⟨x.kind, line,
      p.hierarchy.diagnostic (fun _ => f.name) fixture.options.relatedInformation x⟩
  ((fixture.definitions.zip p.definitions).flatMap fun (spec, d) =>
    (p.hierarchy.findingsOf (p.hierarchy.sitesOf d)).map fun x =>
      report (spec.lineFor p.hierarchy d.owner x.site.subject) x) ++
  ((fixture.defaultConstructed.zip p.defaultConstructed).flatMap fun (name, id) =>
    (p.hierarchy.findingsOf (p.hierarchy.implicitSitesOf id)).map
      (report (fixture.defaultLine name)))

/-! ## Lists side by side -/

section Lists

variable {α β γ : Type} {R : α → β → Prop} {l : List α} {m : List β}

/-- Searching two lists side by side finds entries that stand side by side. -/
theorem find?_of_forall₂ {p : α → Bool} {q : β → Bool} (hl : List.Forall₂ R l m)
    (hpq : ∀ a b, R a b → p a = q b) :
    (l.find? p = none ∧ m.find? q = none) ∨
      ∃ a b, R a b ∧ l.find? p = some a ∧ m.find? q = some b := by
  induction hl with
  | nil => exact Or.inl ⟨rfl, rfl⟩
  | @cons a b l m hab _ ih =>
    rw [List.find?_cons, List.find?_cons, hpq a b hab]
    cases q b with
    | true => exact Or.inr ⟨a, b, hab, rfl, rfl⟩
    | false => exact ih

/-- Two lists side by side contribute the same when their entries do. -/
theorem flatMap_zip_of_forall₂ {g : β → List γ} {k : α × β → List γ} (hl : List.Forall₂ R l m)
    (hgk : ∀ a b, R a b → g b = k (a, b)) : m.flatMap g = (l.zip m).flatMap k := by
  induction hl with
  | nil => rfl
  | cons hab _ ih => rw [List.flatMap_cons, List.zip_cons_cons, List.flatMap_cons, hgk _ _ hab, ih]

/-- A search by a key that no two entries share finds the one entry that has it. -/
theorem find?_of_nodup_map {κ : Type} [DecidableEq κ] {g : α → κ} {a : α}
    (hnodup : (l.map g).Nodup) (ha : a ∈ l) : (l.find? fun b => g b = g a) = some a := by
  induction l with
  | nil => cases ha
  | cons b l ih =>
    obtain ⟨hb, hnodup⟩ := List.nodup_cons.1 hnodup
    rcases List.mem_cons.1 ha with rfl | ha
    · exact List.find?_cons_of_pos (decide_eq_true rfl)
    · have hne : g b ≠ g a := fun heq => hb (List.mem_map.2 ⟨a, ha, heq.symm⟩)
      rw [List.find?_cons_of_neg (by simpa using hne), ih hnodup ha]

end Lists

/-! ## Definitions -/

theorem InitializerSpec.entry_eq_ok {i : InitializerSpec} {e : Entry}
    (hok : i.entry f h = .ok e) : e.name = i.name ∧ f.lineOf e.span.start = i.place.line := by
  obtain ⟨arguments, -, hok⟩ := bind_eq_ok_iff.1 hok
  obtain ⟨span, hspan, hok⟩ := bind_eq_ok_iff.1 hok
  cases hok
  exact ⟨rfl, SourceFile.lineOf_placeSpan hspan⟩

namespace DefinitionSpec

variable {spec : DefinitionSpec} {d : Definition}

theorem definition_eq_ok (hok : spec.definition f h = .ok d) :
    List.Forall₂ (fun i e => InitializerSpec.entry f h i = .ok e) spec.initializers d.entries ∧
      f.lineOf d.implicitPoint.start = (spec.initializerList?.getD spec.bodyOpen).line := by
  obtain ⟨owner, -, hok⟩ := bind_eq_ok_iff.1 hok
  obtain ⟨bodyOpen, hbody, hok⟩ := bind_eq_ok_iff.1 hok
  obtain ⟨initializerList?, hlist, hok⟩ := bind_eq_ok_iff.1 hok
  obtain ⟨entries, hentries, hok⟩ := bind_eq_ok_iff.1 hok
  cases hok
  refine ⟨mapM_eq_ok_iff.1 hentries, ?_⟩
  cases hplace : spec.initializerList? with
  | none =>
    rw [hplace] at hlist
    cases hlist
    exact SourceFile.lineOf_placeSpan hbody
  | some p =>
    rw [hplace] at hlist
    obtain ⟨span, hspan, hlist⟩ := bind_eq_ok_iff.1 hlist
    cases hlist
    exact SourceFile.lineOf_placeSpan hspan

/-- **A finding in a definition is on the line that is written down for its subject.** -/
theorem lineOf_finding (hok : spec.definition f h = .ok d) {x : Finding}
    (hx : x ∈ h.findingsOf (h.sitesOf d)) :
    f.lineOf x.location.start = spec.lineFor h d.owner x.site.subject := by
  obtain ⟨sites, hsites, s, hs, hcheck⟩ := Hierarchy.mem_findingsOf_iff.1 hx
  obtain ⟨rfl, hlocation⟩ := Hierarchy.site_of_checkSite hcheck
  obtain ⟨hentries, hpoint⟩ := definition_eq_ok hok
  rw [hlocation, Hierarchy.location_of_mem_sitesOf hsites hs, lineFor]
  -- an entry has the name of its initializer, so both searches stop at the same place
  rcases find?_of_forall₂ (p := fun i => h.subjectOf? d.owner i.name = some x.site.subject)
    (q := fun e => h.subjectOf? d.owner e.name = some x.site.subject) hentries
    (fun i e he => by rw [(InitializerSpec.entry_eq_ok he).1]) with ⟨hi, he⟩ | ⟨i, e, hie, hi, he⟩
  · rw [hi, he]
    exact hpoint
  · rw [hi, he]
    exact (InitializerSpec.entry_eq_ok hie).2

/-- In a definition that has sites, a subject has one initializer at most. -/
theorem lineFor_of_mem (hok : spec.definition f h = .ok d) {sites : List Site}
    (hsites : h.sitesOf d = .ok sites) {i : InitializerSpec} (hi : i ∈ spec.initializers)
    {su : Subject} (hsu : h.subjectOf? d.owner i.name = some su) :
    spec.lineFor h d.owner su = i.place.line := by
  have hsubjects : spec.initializers.map (fun i => h.subjectOf? d.owner i.name) =
      d.entries.map fun e => h.subjectOf? d.owner e.name := by
    refine List.forall₂_eq_eq_eq ▸ List.forall₂_map_left_iff.2 (List.forall₂_map_right_iff.2 ?_)
    exact (definition_eq_ok hok).1.imp fun i e he => by rw [(InitializerSpec.entry_eq_ok he).1]
  have hnodup := Hierarchy.subjects_nodup hsites
  rw [← hsubjects] at hnodup
  have hfind := find?_of_nodup_map hnodup hi
  simp only [hsu] at hfind
  unfold lineFor
  rw [hfind]

theorem lineFor_of_forall_ne (spec : DefinitionSpec) {owner : ClassId} {su : Subject}
    (hno : ∀ i ∈ spec.initializers, h.subjectOf? owner i.name ≠ some su) :
    spec.lineFor h owner su = (spec.initializerList?.getD spec.bodyOpen).line := by
  unfold lineFor
  rw [List.find?_eq_none.2 fun i hi => by simpa using hno i hi]

end DefinitionSpec

/-! ## Default-constructed classes -/

namespace Fixture

variable {fixture : Fixture} {p : Program} {name : String} {o : Outcome}

/-- The parts of a program come from the parts of its fixture, one by one. -/
theorem program_eq_ok (hok : fixture.program f = .ok p) :
    hierarchy f fixture.classes = .ok p.hierarchy ∧
      List.Forall₂ (fun spec d => DefinitionSpec.definition f p.hierarchy spec = .ok d)
        fixture.definitions p.definitions ∧
      List.Forall₂ (fun name id => p.hierarchy.namedClass name = .ok id)
        fixture.defaultConstructed p.defaultConstructed := by
  obtain ⟨h, hh, hok⟩ := bind_eq_ok_iff.1 hok
  obtain ⟨definitions, hdefinitions, hok⟩ := bind_eq_ok_iff.1 hok
  obtain ⟨defaultConstructed, hdefault, hok⟩ := bind_eq_ok_iff.1 hok
  cases hok
  exact ⟨hh, mapM_eq_ok_iff.1 hdefinitions, mapM_eq_ok_iff.1 hdefault⟩

/-- What becomes of a fixture: the findings in its program, each on its line. -/
theorem run_eq_ok_iff [ParallelMap] : fixture.run name f = .ok o ↔
    ∃ p xs, fixture.program f = .ok p ∧ p.findings fixture.options name = .ok xs ∧
      o = ⟨name, fixture.description, f, fixture.expected,
        xs.map (f.reported p.hierarchy fixture.options)⟩ := by
  constructor
  · intro hrun
    obtain ⟨p, hp, hrun⟩ := bind_eq_ok_iff.1 hrun
    obtain ⟨xs, hxs, hrun⟩ := bind_eq_ok_iff.1 hrun
    exact ⟨p, xs, mapError_eq_ok_iff.1 hp, hxs, (Except.ok.inj hrun).symm⟩
  · rintro ⟨p, xs, hp, hxs, rfl⟩
    exact bind_eq_ok_iff.2 ⟨p, mapError_eq_ok_iff.2 hp, bind_eq_ok_iff.2 ⟨xs, hxs, rfl⟩⟩

theorem defaultLine_of_mem (hok : hierarchy f fixture.classes = .ok h) {c : ClassSpec}
    (hc : c ∈ fixture.classes) : fixture.defaultLine c.name = c.defaultLine := by
  unfold defaultLine
  rw [find?_of_nodup_map (names_nodup_of_hierarchy hok) hc]
  rfl

theorem exists_spec_of_namedClass (hok : hierarchy f fixture.classes = .ok h) {id : ClassId}
    (hname : h.namedClass name = .ok id) :
    ∃ c ∈ fixture.classes, c.name = name ∧ ∃ r, h.class? id = some r ∧
      f.lineOf r.implicitDefaultPoint.start = c.defaultLine := by
  rw [Hierarchy.namedClass, mapError_eq_ok_iff, Hierarchy.classByName] at hname
  cases hlookup : h.names.lookup name with
  | none => simp [hlookup] at hname
  | some id' =>
    simp only [hlookup, Except.ok.injEq] at hname
    subst hname
    obtain ⟨r, hr, rfl⟩ := (reachable_of_hierarchy hok).wellFormed.lookup_name.1 hlookup
    obtain ⟨c, hc, hcname, hline⟩ := exists_spec_of_class hok hr
    exact ⟨c, hc, hcname, r, hr, hline⟩

/-- **A finding in a default-constructed class is on the line that is written down for it.** -/
theorem lineOf_implicit_finding (hok : hierarchy f fixture.classes = .ok h) {id : ClassId}
    (hname : h.namedClass name = .ok id) {x : Finding}
    (hx : x ∈ h.findingsOf (h.implicitSitesOf id)) :
    f.lineOf x.location.start = fixture.defaultLine name := by
  obtain ⟨sites, hsites, s, hs, hcheck⟩ := Hierarchy.mem_findingsOf_iff.1 hx
  obtain ⟨r, hr, hlocation⟩ := Hierarchy.location_of_mem_implicitSitesOf hsites hs
  obtain ⟨c, hc, rfl, r', hr', hline⟩ := exists_spec_of_namedClass hok hname
  rw [hr] at hr'
  cases hr'
  rw [(Hierarchy.site_of_checkSite hcheck).2, hlocation, hline, defaultLine_of_mem hok hc]

/-! ## The report -/

theorem findings_perm [ParallelMap] {xs : List Finding}
    (hok : p.findings fixture.options name = .ok xs) :
    xs.Perm ((p.definitions.flatMap fun d => p.hierarchy.findingsOf (p.hierarchy.sitesOf d)) ++
      p.defaultConstructed.flatMap fun id =>
        p.hierarchy.findingsOf (p.hierarchy.implicitSitesOf id)) := by
  obtain ⟨ys, hys, hok⟩ := bind_eq_ok_iff.1 hok
  obtain ⟨zs, hzs, hok⟩ := bind_eq_ok_iff.1 hok
  rw [mapError_eq_ok_iff] at hys hzs
  cases hok
  exact (Hierarchy.sort_perm _).trans
    ((Hierarchy.checkDefinitions_perm hys).append (Hierarchy.checkImplicitDefaults_perm hzs))

/-- The findings in words, on the lines of their locations, are those that are written down. -/
theorem map_reported_eq_written (hok : fixture.program f = .ok p) :
    ((p.definitions.flatMap fun d => p.hierarchy.findingsOf (p.hierarchy.sitesOf d)) ++
      p.defaultConstructed.flatMap fun id =>
        p.hierarchy.findingsOf (p.hierarchy.implicitSitesOf id)).map
          (f.reported p.hierarchy fixture.options) = fixture.written f p := by
  obtain ⟨hhierarchy, hdefinitions, hdefault⟩ := program_eq_ok hok
  unfold written
  rw [List.map_append, List.map_flatMap, List.map_flatMap]
  congr 1
  · refine flatMap_zip_of_forall₂ hdefinitions fun spec d hd => List.map_congr_left fun x hx => ?_
    rw [SourceFile.reported, DefinitionSpec.lineOf_finding hd hx]
  · refine flatMap_zip_of_forall₂ hdefault fun name id hid => List.map_congr_left fun x hx => ?_
    rw [SourceFile.reported, lineOf_implicit_finding hhierarchy hid hx]

theorem exists_sitesOf_of_findings [ParallelMap] {xs : List Finding}
    (hok : p.findings fixture.options name = .ok xs) {d : Definition} (hd : d ∈ p.definitions) :
    ∃ sites, p.hierarchy.sitesOf d = .ok sites := by
  obtain ⟨ys, hys, -⟩ := bind_eq_ok_iff.1 hok
  rw [mapError_eq_ok_iff] at hys
  obtain ⟨batches, hbatches, -⟩ := bind_eq_ok_iff.1 hys
  exact exists_ok_of_mapM hbatches hd

/--
**Every finding is reported on the line that is written down for its construction.** The report is
what the definitions and the default-constructed classes contribute. The line of a finding is that
of the initializer of its subject; without one, that of the initializer list or of the body; and
for a default-constructed class that of its implicit default constructor or of its head, or else 1.
-/
theorem run_reported_on_written_lines [ParallelMap] (hrun : fixture.run name f = .ok o) :
    ∃ p, fixture.program f = .ok p ∧ o.reported.Perm (fixture.written f p) ∧
      (∀ x ∈ fixture.definitions.zip p.definitions, ∀ su : Subject,
        (∀ i ∈ x.1.initializers, p.hierarchy.subjectOf? x.2.owner i.name = some su →
          x.1.lineFor p.hierarchy x.2.owner su = i.place.line) ∧
        ((∀ i ∈ x.1.initializers, p.hierarchy.subjectOf? x.2.owner i.name ≠ some su) →
          x.1.lineFor p.hierarchy x.2.owner su =
            (x.1.initializerList?.getD x.1.bodyOpen).line)) ∧
      (∀ name ∈ fixture.defaultConstructed, ∃ c ∈ fixture.classes, c.name = name) ∧
      ∀ c ∈ fixture.classes, fixture.defaultLine c.name =
        ((c.implicitDefaultPlace?.or c.place?).map (·.line)).getD 1 := by
  obtain ⟨p, xs, hp, hxs, rfl⟩ := run_eq_ok_iff.1 hrun
  obtain ⟨hhierarchy, hdefinitions, hdefault⟩ := program_eq_ok hp
  refine ⟨p, hp, ?_, fun x hx su => ⟨fun i hi hsu => ?_, x.1.lineFor_of_forall_ne⟩,
    fun name hname => ?_, fun c => defaultLine_of_mem hhierarchy⟩
  · rw [← map_reported_eq_written hp]
    exact (findings_perm hxs).map _
  · obtain ⟨sites, hsites⟩ := exists_sitesOf_of_findings hxs (List.of_mem_zip hx).2
    exact DefinitionSpec.lineFor_of_mem ((List.forall₂_iff_zip.1 hdefinitions).2 hx) hsites hi hsu
  · obtain ⟨id, hid⟩ := exists_ok_of_mapM (mapM_eq_ok_iff.2 hdefault) hname
    obtain ⟨c, hc, hcname, -⟩ := exists_spec_of_namedClass hhierarchy hid
    exact ⟨c, hc, hcname⟩

/--
A private constructor, used in an initializer, without one, and by default, in a text with all
three line ends. All columns lie past the ends of their lines.
-/
theorem run_reported_on_lines_three_four_two :
    let fixture : Fixture := {
      description := "part and whole", source := "whole.cpp", options := .default
      classes := [⟨"Part", none, [], [], [⟨.privateAccess, [], none⟩], none⟩,
        ⟨"Whole", some ⟨1, 9, 1⟩, [], [⟨"part", "Part", .publicAccess, none, none⟩], [],
          some ⟨2, 9, 1⟩⟩]
      definitions := [⟨"Whole", some ⟨1, 9, 1⟩, ⟨4, 9, 1⟩, [⟨"part", [], ⟨3, 9, 1⟩⟩]⟩,
        ⟨"Whole", none, ⟨4, 9, 1⟩, []⟩]
      defaultConstructed := ["Whole"], expected := [] }
    let f : SourceFile := ⟨"whole.cpp", ['a', '\n', 'b', '\r', '\n', 'c', '\r', 'd']⟩
    ∃ o, fixture.run "whole" f = .ok o ∧
      o.keys.Perm [⟨.inaccessibleConstructor, 3⟩, ⟨.inaccessibleConstructor, 4⟩,
        ⟨.inaccessibleConstructor, 2⟩] := by
  intro fixture f
  have hrun : (fixture.run "whole" f).toOption.isSome = true := by decide +kernel +zetaReduce
  have hkeys : ((fixture.program f).toOption.map fun p => (fixture.written f p).map (·.key)) =
      some [⟨.inaccessibleConstructor, 3⟩, ⟨.inaccessibleConstructor, 4⟩,
        ⟨.inaccessibleConstructor, 2⟩] := by decide +kernel +zetaReduce
  cases ho : fixture.run "whole" f with
  | error e => rw [ho] at hrun; cases hrun
  | ok o =>
    obtain ⟨p, hp, hperm, -⟩ := run_reported_on_written_lines ho
    rw [hp] at hkeys
    exact ⟨o, rfl, Option.some.inj hkeys ▸ hperm.map Reported.key⟩

end Fixture

end ConstructorCheck
