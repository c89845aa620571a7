import ConstructorCheck.Proofs.Fixture.Lines
import ConstructorCheck.Proofs.Fixture.Requests
/-!
# Where the spans of a program come from

The checker computes no spans: it hands on those that it was given. So every span that a finding or
a note shows is the span of a place of the fixture, or the unknown span where the fixture names no
place.

* `Fixture.places` — the places that a fixture names
* `SourceFile.SpanOf` — the span of one of some places, or the unknown one
* `Hierarchy.SpansIn` — a property of the spans in a hierarchy, kept by declarations
* `Fixture.spanOf_location`, `Fixture.spanOf_constructorSpan` — the spans of findings and of notes
-/

namespace ConstructorCheck

/-! ## The places of a fixture -/

def ClassSpec.places (c : ClassSpec) : List Place :=
  c.place?.toList ++ c.implicitDefaultPlace?.toList ++ c.bases.filterMap (·.place?) ++
    c.members.filterMap (·.place?) ++ c.constructors.filterMap (·.place?)

def DefinitionSpec.places (d : DefinitionSpec) : List Place :=
  d.bodyOpen :: d.initializerList?.toList ++ d.initializers.map (·.place)

/-- The places that a fixture names. -/
def Fixture.places (fixture : Fixture) : List Place :=
  fixture.classes.flatMap (·.places) ++ fixture.definitions.flatMap (·.places)

namespace SourceFile

variable {f : SourceFile} {ps qs : List Place} {s : Span}

/-- The span of one of some places, or of a place that is not given. -/
inductive SpanOf (f : SourceFile) (ps : List Place) : Span → Prop where
  | unknown : SpanOf f ps .unknown
  | place {p : Place} {s : Span} (hp : p ∈ ps) (hs : f.placeSpan p = .ok s) : SpanOf f ps s

theorem SpanOf.mono (hs : f.SpanOf ps s) (hsub : ps ⊆ qs) : f.SpanOf qs s := by
  cases hs with
  | unknown => exact .unknown
  | place hp hs => exact .place (hsub hp) hs

theorem spanOf_of_placeSpanOrUnknown {p? : Option Place} (hs : f.placeSpanOrUnknown p? = .ok s)
    (hsub : ∀ p, p? = some p → p ∈ ps) : f.SpanOf ps s := by
  cases p? with
  | none =>
    cases hs
    exact .unknown
  | some p => exact .place (hsub p rfl) hs

/-- What the span of a place starts with. -/
theorem placeSpan_eq_ok {p : Place} (hs : f.placeSpan p = .ok s) : s.file = 0 ∧
    f.lines.offsetAt? ⟨p.line - 1, p.column - 1⟩ f.text = some s.start := by
  rw [placeSpan, mapError_eq_ok_iff, SourceFile.span] at hs
  split at hs
  · cases hs
  · split at hs
    · cases hs
    · next start hstart =>
      split at hs
      · cases hs
        exact ⟨rfl, hstart⟩
      · cases hs

theorem SpanOf.file_eq (hs : f.SpanOf ps s) : s.file = 0 := by
  cases hs with
  | unknown => rfl
  | place hp hs => exact (placeSpan_eq_ok hs).1

end SourceFile

/-! ## Spans in a hierarchy -/

/-- The span that a declaration carries. -/
def Declaration.span : Declaration → Span
  | .newClass _ span => span
  | .implicitDefaultPoint _ point => point
  | .base _ _ _ span => span
  | .member _ _ _ _ _ span => span
  | .constructor _ _ _ span => span

namespace Hierarchy

variable {h h' : Hierarchy} {P : Span → Prop} {d : Declaration} {r : Declared}

/-- A property of all spans at which findings and notes can point. -/
structure SpansIn (P : Span → Prop) (h : Hierarchy) : Prop where
  classes : ∀ id c, h.class? id = some c → P c.span ∧ P c.implicitDefaultPoint
  constructors : ∀ id k, h.constructor? id = some k → P k.span

theorem SpansIn.classes_of_outline (hs : h.SpansIn P)
    (hclass : ∀ id, (h'.class? id).map (fun c => (c.span, c.implicitDefaultPoint)) =
      (h.class? id).map fun c => (c.span, c.implicitDefaultPoint)) (id : ClassId) (c : ClassDecl)
    (hc : h'.class? id = some c) : P c.span ∧ P c.implicitDefaultPoint := by
  have hsame := hclass id
  rw [hc, Option.map_some] at hsame
  obtain ⟨e, he, heq⟩ := Option.map_eq_some_iff.1 hsame.symm
  rw [Prod.mk.injEq] at heq
  rw [← heq.1, ← heq.2]
  exact hs.classes id e he

/-- **An accepted declaration brings no span but its own.** -/
theorem SpansIn.accepts (hs : h.SpansIn P) (ha : h.Accepts d r h') (hd : P d.span) :
    h'.SpansIn P := by
  cases ha with
  | newClass =>
    refine ⟨fun j c hc => ?_, hs.constructors⟩
    rw [class?_withClass] at hc
    split at hc
    · cases hc
      exact ⟨hd, hd⟩
    · exact hs.classes j c hc
  | implicitDefaultPoint =>
    refine ⟨fun j c hc => ?_, hs.constructors⟩
    rw [class?_withPoint] at hc
    split at hc
    · obtain ⟨e, he, rfl⟩ := Option.map_eq_some_iff.1 hc
      exact ⟨(hs.classes j e he).1, hd⟩
    · exact hs.classes j c hc
  | base =>
    exact ⟨hs.classes_of_outline fun j => map_class?_withBase h _ (fun _ => rfl) j,
      hs.constructors⟩
  | member =>
    exact ⟨hs.classes_of_outline fun j => map_class?_withMember h _ (fun _ => rfl) j,
      hs.constructors⟩
  | constructor =>
    refine ⟨hs.classes_of_outline fun j => map_class?_withConstructor h _ (fun _ => rfl) j,
      fun j k hk => ?_⟩
    rw [constructor?_withConstructor] at hk
    split at hk
    · cases hk
      exact hd
    · exact hs.constructors j k hk

theorem SpansIn.extend {ds : List Declaration} (hs : h.SpansIn P) (hok : h.extend ds = .ok h')
    (hds : ∀ d ∈ ds, P d.span) : h'.SpansIn P := by
  induction ds using List.reverseRecOn generalizing h' with
  | nil =>
    cases hok
    exact hs
  | append_singleton ds d ih =>
    obtain ⟨h₁, hok, hd⟩ := extend_append_eq_ok_iff.1 hok
    obtain ⟨r, ha⟩ := extend_singleton_eq_ok_iff.1 hd
    obtain ⟨hds, hd⟩ := List.forall_mem_append.1 hds
    exact (ih hok hds).accepts ha (hd d (List.mem_singleton.2 rfl))

end Hierarchy

/-! ## The hierarchy of a fixture -/

section Requests

variable {f : SourceFile} {g : Hierarchy} {id : ClassId} {ps : List Place}

theorem BaseSpec.spanOf_requests {b : BaseSpec} (hb : ∀ p, b.place? = some p → p ∈ ps) :
    (b.requests f g id).Forall fun d => f.SpanOf ps d.span :=
  .bind fun _ _ => .bind fun _ hspan =>
    .single (SourceFile.spanOf_of_placeSpanOrUnknown hspan hb)

theorem MemberSpec.spanOf_requests {m : MemberSpec} (hm : ∀ p, m.place? = some p → p ∈ ps) :
    (m.requests f g id).Forall fun d => f.SpanOf ps d.span :=
  .bind fun _ _ => .bind fun _ hspan =>
    .single (SourceFile.spanOf_of_placeSpanOrUnknown hspan hm)

theorem ConstructorSpec.spanOf_requests {k : ConstructorSpec}
    (hk : ∀ p, k.place? = some p → p ∈ ps) :
    (k.requests f g id).Forall fun d => f.SpanOf ps d.span :=
  .bind fun _ hspan => .bind fun _ _ =>
    .single (SourceFile.spanOf_of_placeSpanOrUnknown hspan hk)

namespace ClassSpec

theorem spanOf_pointRequests {c : ClassSpec}
    (hc : ∀ p, c.implicitDefaultPlace? = some p → p ∈ ps) :
    (c.pointRequests f id).Forall fun d => f.SpanOf ps d.span := by
  unfold pointRequests
  cases hplace : c.implicitDefaultPlace? with
  | none =>
    intro ds hok
    cases hok
    exact List.forall_mem_nil _
  | some p => exact .bind fun _ hspan => .single (.place (hc p hplace) hspan)

/-- **The declarations of a class carry the spans of its places.** -/
theorem spanOf_requests (c : ClassSpec) :
    (c.requests f g id).Forall fun d => f.SpanOf c.places d.span := by
  refine .append (spanOf_pointRequests fun p hp => ?_) <|
    .append (.all fun b hb => BaseSpec.spanOf_requests fun p hp => ?_) <|
      .append (.all fun m hm => MemberSpec.spanOf_requests fun p hp => ?_) <|
        .all fun k hk => ConstructorSpec.spanOf_requests fun p hp => ?_
  · simp [places, hp]
  · have hmem := List.mem_filterMap.2 ⟨b, hb, hp⟩
    simp [places, hmem]
  · have hmem := List.mem_filterMap.2 ⟨m, hm, hp⟩
    simp [places, hmem]
  · have hmem := List.mem_filterMap.2 ⟨k, hk, hp⟩
    simp [places, hmem]

end ClassSpec

end Requests

namespace Fixture

variable {fixture : Fixture} {f : SourceFile} {h : Hierarchy} {classes : List ClassSpec}
  {p : Program}

/-- **The spans in the hierarchy of a fixture are those of its classes.** -/
theorem spansIn_hierarchy (hok : hierarchy f classes = .ok h) :
    h.SpansIn (f.SpanOf (classes.flatMap (·.places))) := by
  obtain ⟨hdeclarable, ds, hds, hext⟩ := hierarchy_eq_ok_iff.1 hok
  have hplaces {c : ClassSpec} (hc : c ∈ classes) : c.places ⊆ classes.flatMap (·.places) :=
    fun p hp => List.mem_flatMap.2 ⟨c, hc, hp⟩
  have hdeclared : (declared f classes).SpansIn (f.SpanOf (classes.flatMap (·.places))) := by
    constructor
    · intro id r hr
      rw [class?_declared] at hr
      obtain ⟨c, hc, rfl⟩ := Option.map_eq_some_iff.1 hr
      have hmem : c ∈ classes := List.mem_of_getElem? hc
      obtain ⟨span, hspan⟩ := hdeclarable.spans c hmem
      have hhead : f.SpanOf (classes.flatMap (·.places)) (c.headSpan f) := by
        rw [ClassSpec.headSpan_eq hspan]
        refine SourceFile.spanOf_of_placeSpanOrUnknown hspan fun p hp => hplaces hmem ?_
        simp [ClassSpec.places, hp]
      exact ⟨hhead, hhead⟩
    · intro id k hk
      rw [Hierarchy.constructor?, constructors_declared] at hk
      cases hk
  have hreq : ∀ q ∈ numbered classes,
      Requests.Forall (fun d => f.SpanOf (classes.flatMap (·.places)) d.span)
        (q.1.requests f (declared f classes) q.2) := fun q hq ds hds d hd =>
    have hmem : q.1 ∈ classes := (List.of_mem_zip hq).1
    (q.1.spanOf_requests ds hds d hd).mono (hplaces hmem)
  exact hdeclared.extend hext fun d hd => Requests.Forall.all hreq ds hds d hd

theorem spanOf_constructorSpan (hp : fixture.program f = .ok p) (k : ConstructorRef) :
    f.SpanOf fixture.places (p.hierarchy.constructorSpan k) := by
  have hspans := spansIn_hierarchy (program_eq_ok hp).1
  have hsub : fixture.classes.flatMap (·.places) ⊆ fixture.places := List.subset_append_left _ _
  cases k with
  | declared id =>
    show f.SpanOf _ (((p.hierarchy.constructor? id).map (·.span)).getD .unknown)
    cases hk : p.hierarchy.constructor? id with
    | none => exact .unknown
    | some k => exact (hspans.constructors id k hk).mono hsub
  | implicit id =>
    show f.SpanOf _ (((p.hierarchy.class? id).map (·.span)).getD .unknown)
    cases hc : p.hierarchy.class? id with
    | none => exact .unknown
    | some c => exact (hspans.classes id c hc).1.mono hsub

end Fixture

/-! ## The definitions of a fixture -/

theorem DefinitionSpec.spanOf_definition {f : SourceFile} {h : Hierarchy} {spec : DefinitionSpec}
    {d : Definition} (hok : spec.definition f h = .ok d) :
    f.SpanOf spec.places d.implicitPoint ∧ ∀ e ∈ d.entries, f.SpanOf spec.places e.span := by
  obtain ⟨owner, -, hok⟩ := bind_eq_ok_iff.1 hok
  obtain ⟨bodyOpen, hbody, hok⟩ := bind_eq_ok_iff.1 hok
  obtain ⟨initializerList?, hlist, hok⟩ := bind_eq_ok_iff.1 hok
  obtain ⟨entries, hentries, hok⟩ := bind_eq_ok_iff.1 hok
  cases hok
  constructor
  · cases hplace : spec.initializerList? with
    | none =>
      rw [hplace] at hlist
      cases hlist
      exact .place (by simp [places]) hbody
    | some p =>
      rw [hplace] at hlist
      obtain ⟨span, hspan, hlist⟩ := bind_eq_ok_iff.1 hlist
      cases hlist
      exact .place (by simp [places, hplace]) hspan
  · intro e he
    obtain ⟨i, hi, hie⟩ := exists_of_mem_mapM hentries he
    obtain ⟨arguments, -, hie⟩ := bind_eq_ok_iff.1 hie
    obtain ⟨span, hspan, hie⟩ := bind_eq_ok_iff.1 hie
    cases hie
    exact .place (by simpa [places] using Or.inr (Or.inr ⟨i, hi, rfl⟩)) hspan

namespace Fixture

variable {fixture : Fixture} {f : SourceFile} {p : Program} {name : String}

/-- **The findings in the program of a fixture stand at its places.** -/
theorem spanOf_location [ParallelMap] (hp : fixture.program f = .ok p) {xs : List Finding}
    (hxs : p.findings fixture.options name = .ok xs) {x : Finding} (hx : x ∈ xs) :
    f.SpanOf fixture.places x.location := by
  obtain ⟨hhierarchy, hdefinitions, hdefault⟩ := program_eq_ok hp
  rcases List.mem_append.1 ((findings_perm hxs).mem_iff.1 hx) with hx | hx
  · obtain ⟨d, hd, hx⟩ := List.mem_flatMap.1 hx
    obtain ⟨spec, hspec, hd⟩ := exists_of_mem_mapM (mapM_eq_ok_iff.2 hdefinitions) hd
    have hsub : spec.places ⊆ fixture.places := fun q hq =>
      List.mem_append_right _ (List.mem_flatMap.2 ⟨spec, hspec, hq⟩)
    obtain ⟨sites, hsites, s, hs, hcheck⟩ := Hierarchy.mem_findingsOf_iff.1 hx
    obtain ⟨hpoint, hentries⟩ := DefinitionSpec.spanOf_definition hd
    rw [(Hierarchy.site_of_checkSite hcheck).2, Hierarchy.location_of_mem_sitesOf hsites hs]
    -- at the entry of its subject, or else at the implicit point
    cases hfind : d.entries.find? fun e =>
        p.hierarchy.subjectOf? d.owner e.name = some s.subject with
    | none => exact hpoint.mono hsub
    | some e => exact (hentries e (List.mem_of_find?_eq_some hfind)).mono hsub
  · obtain ⟨id, -, hx⟩ := List.mem_flatMap.1 hx
    obtain ⟨sites, hsites, s, hs, hcheck⟩ := Hierarchy.mem_findingsOf_iff.1 hx
    obtain ⟨c, hc, hlocation⟩ := Hierarchy.location_of_mem_implicitSitesOf hsites hs
    rw [(Hierarchy.site_of_checkSite hcheck).2, hlocation]
    exact ((spansIn_hierarchy hhierarchy).classes id c hc).2.mono (List.subset_append_left _ _)

end Fixture

end ConstructorCheck
