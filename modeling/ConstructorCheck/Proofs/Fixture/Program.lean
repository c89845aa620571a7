import ConstructorCheck.Fixture.Program
import ConstructorCheck.Proofs.Hierarchy.WellFormed
import ConstructorCheck.Proofs.Text.LineMap
import Mathlib.Data.List.Nodup
/-!
# The hierarchy of a fixture

Every class of a fixture gets one record, with its name and with the line that the fixture writes
down for its implicit default constructor.

* `SourceFile.lineOf_span` — the span of a place starts on the line of the place
* `Fixture.reachable_of_hierarchy` — the hierarchy is built by declarations
* `Fixture.exists_spec_of_class` — each class record comes from a class of the fixture

All classes are declared before the first one gets its content, and filling a class changes the
name and the implicit point of no other one. So the records that the declarations make stay until
it is the turn of their class.
-/

namespace ConstructorCheck

/-! ## Places -/

namespace SourceFile

variable {f : SourceFile} {span : Span}

/-- **The span of a place starts on the line of the place**, whatever the column. -/
theorem lineOf_span {p : Place} (h : f.span p = .ok span) : f.lineOf span.start = p.line := by
  unfold SourceFile.span at h
  split at h
  · cases h
  · next hpos =>
    rw [not_or] at hpos
    split at h
    · cases h
    · next start hstart =>
      split at h
      · cases h
        have hline : f.lines.lineAt start = p.line - 1 := Text.LineMap.lineAt_offsetAt? hstart
        show f.lines.lineAt start + 1 = p.line
        omega
      · cases h

theorem lineOf_placeSpan {p : Place} (h : f.placeSpan p = .ok span) :
    f.lineOf span.start = p.line :=
  lineOf_span (mapError_eq_ok_iff.1 h)

/-- A place that is not given counts as the first line. -/
theorem lineOf_placeSpanOrUnknown {p? : Option Place} (h : f.placeSpanOrUnknown p? = .ok span) :
    f.lineOf span.start = (p?.map (·.line)).getD 1 := by
  unfold placeSpanOrUnknown at h
  rw [mapError_eq_ok_iff] at h
  cases p? with
  | none =>
    cases h
    show f.lines.lineAt 0 + 1 = 1
    rw [SourceFile.lines, Text.LineMap.lineAt_zero]
  | some p => exact lineOf_span h

end SourceFile

/-! ## Declaring the classes -/

/-- The place where the fixture reports the implicit default constructor of a class. -/
def ClassSpec.defaultLine (c : ClassSpec) : Nat :=
  ((c.implicitDefaultPlace?.or c.place?).map (·.line)).getD 1

namespace ClassSpec

variable {f : SourceFile} {c : ClassSpec} {cs : List ClassSpec} {id : ClassId}
  {ids : List ClassId} {h h' : Hierarchy}

/-- The record of a class has its name and reports its implicit constructor on a line. -/
def Recorded (f : SourceFile) (h : Hierarchy) (c : ClassSpec) (line : Nat) (id : ClassId) : Prop :=
  ∃ r, h.class? id = some r ∧ r.name = c.name ∧ f.lineOf r.implicitDefaultPoint.start = line

/-- What `Recorded` reads of a class. -/
def outline (r : ClassDecl) : String × Span := (r.name, r.implicitDefaultPoint)

theorem Recorded.congr {line : Nat} (hc : Recorded f h c line id)
    (hclass : (h'.class? id).map outline = (h.class? id).map outline) :
    Recorded f h' c line id := by
  obtain ⟨r, hr, hname, hline⟩ := hc
  rw [hr, Option.map_some, Option.map_eq_some_iff] at hclass
  obtain ⟨r', hr', hout⟩ := hclass
  simp only [outline, Prod.mk.injEq] at hout
  exact ⟨r', hr', hout.1.trans hname, by rw [hout.2, hline]⟩

theorem declare_eq_ok (hok : c.declare f h = .ok (id, h')) :
    ∃ span, f.placeSpanOrUnknown c.place? = .ok span ∧ h.names.lookup c.name = none ∧
      id = ⟨h.classes.length⟩ ∧ h' = h.withClass c.name span := by
  obtain ⟨span, hspan, hok⟩ := bind_eq_ok_iff.1 hok
  rw [mapError_eq_ok_iff, Hierarchy.declareClass_eq_ok_iff] at hok
  exact ⟨span, hspan, hok⟩

/-- What declaring some classes does, without their content. -/
structure Declares (f : SourceFile) (h : Hierarchy) (cs : List ClassSpec) (ids : List ClassId)
    (h' : Hierarchy) : Prop where
  recorded : List.Forall₂ (fun c => Recorded f h' c ((c.place?.map (·.line)).getD 1)) cs ids
  kept : ∀ id r, h.class? id = some r → h'.class? id = some r
  /-- Nothing else is declared. -/
  complete : ∀ id r, h'.class? id = some r → h.class? id = some r ∨ id ∈ ids
  fresh : ∀ id ∈ ids, h.class? id = none
  ids_nodup : ids.Nodup
  names_fresh : ∀ c ∈ cs, h.names.lookup c.name = none
  names_nodup : (cs.map (·.name)).Nodup
  reachable : h.Reachable → h'.Reachable

theorem Declares.nil : Declares f h [] [] h where
  recorded := .nil
  kept _ _ hr := hr
  complete _ _ hr := Or.inl hr
  fresh _ hid := absurd hid List.not_mem_nil
  ids_nodup := .nil
  names_fresh _ hc := absurd hc List.not_mem_nil
  names_nodup := .nil
  reachable hr := hr

theorem Declares.cons {span : Span} (hspan : f.placeSpanOrUnknown c.place? = .ok span)
    (hname : h.names.lookup c.name = none)
    (hd : Declares f (h.withClass c.name span) cs ids h') :
    Declares f h (c :: cs) (⟨h.classes.length⟩ :: ids) h' := by
  have hnone : h.class? ⟨h.classes.length⟩ = none :=
    Hierarchy.class?_eq_none_iff.2 (Nat.le_refl _)
  have hnew : (h.withClass c.name span).class? ⟨h.classes.length⟩ =
      some ⟨⟨h.classes.length⟩, c.name, span, span, [], [], []⟩ := by
    rw [Hierarchy.class?_withClass, if_pos rfl]
  have hold {id : ClassId} (hid : id ≠ ⟨h.classes.length⟩) :
      (h.withClass c.name span).class? id = h.class? id := by
    rw [Hierarchy.class?_withClass, if_neg hid]
  refine ⟨.cons ?_ hd.recorded, ?_, ?_, ?_, ?_, ?_, ?_, ?_⟩
  · exact ⟨_, hd.kept _ _ hnew, rfl, SourceFile.lineOf_placeSpanOrUnknown hspan⟩
  · intro id r hr
    refine hd.kept id r ?_
    rwa [hold fun hid => by simp [hid, hnone] at hr]
  · intro id r hr
    rcases hd.complete id r hr with hr | hid
    · by_cases hid : id = ⟨h.classes.length⟩
      · exact Or.inr (List.mem_cons.2 (Or.inl hid))
      · exact Or.inl (hold hid ▸ hr)
    · exact Or.inr (List.mem_cons_of_mem _ hid)
  · intro id hid
    rcases List.mem_cons.1 hid with rfl | hid
    · exact hnone
    · have hfresh := hd.fresh id hid
      rwa [hold fun heq => by simp [heq, hnew] at hfresh] at hfresh
  · refine List.nodup_cons.2 ⟨fun hid => ?_, hd.ids_nodup⟩
    have hfresh := hd.fresh _ hid
    rw [hnew] at hfresh
    cases hfresh
  · intro c' hc'
    rcases List.mem_cons.1 hc' with rfl | hc'
    · exact hname
    · have hfresh := hd.names_fresh c' hc'
      rw [Hierarchy.names_withClass, List.lookup_cons] at hfresh
      split at hfresh
      · cases hfresh
      · exact hfresh
  · refine List.nodup_cons.2 ⟨fun hmem => ?_, hd.names_nodup⟩
    obtain ⟨c', hc', heq⟩ := List.mem_map.1 hmem
    have hfresh := hd.names_fresh c' hc'
    rw [Hierarchy.names_withClass, heq, List.lookup_cons_self] at hfresh
    cases hfresh
  · exact fun hr => hd.reachable (hr.accepts (.newClass hname))

/-- **Declaring the classes makes one record for each.** -/
theorem declareAll_spec (hok : declareAll f h cs = .ok (ids, h')) : Declares f h cs ids h' := by
  induction cs generalizing h ids h' with
  | nil =>
    cases hok
    exact .nil
  | cons c cs ih =>
    obtain ⟨⟨id, h₁⟩, hc, hok⟩ := bind_eq_ok_iff.1 hok
    obtain ⟨⟨ids', h₂⟩, hcs, hok⟩ := bind_eq_ok_iff.1 hok
    cases hok
    obtain ⟨span, hspan, hname, rfl, rfl⟩ := declare_eq_ok hc
    exact .cons hspan hname (ih hcs)

/-! ## Filling the classes -/

/-- What bases, members and constructors leave alone. -/
structure SameOutline (h h' : Hierarchy) : Prop where
  outline : ∀ j, (h'.class? j).map outline = (h.class? j).map outline
  reachable : h.Reachable → h'.Reachable

namespace SameOutline

theorem refl (h : Hierarchy) : SameOutline h h := ⟨fun _ => rfl, id⟩

theorem trans {h₁ h₂ h₃ : Hierarchy} (h : SameOutline h₁ h₂) (h' : SameOutline h₂ h₃) :
    SameOutline h₁ h₃ :=
  ⟨fun j => (h'.outline j).trans (h.outline j), h'.reachable ∘ h.reachable⟩

theorem of_addBase {b : BaseSpec} (hok : c.addBase f id h b = .ok h') : SameOutline h h' := by
  obtain ⟨base, -, hok⟩ := bind_eq_ok_iff.1 hok
  obtain ⟨span, -, hok⟩ := bind_eq_ok_iff.1 hok
  obtain ⟨d, e, hd, he, hne, hnew, hback, hdepth, rfl⟩ :=
    Hierarchy.addBase_eq_ok_iff.1 (mapError_eq_ok_iff.1 hok)
  exact ⟨h.map_class?_withBase _ fun _ => rfl,
    fun hr => hr.accepts (.base hd he hne hnew hback hdepth)⟩

theorem of_addMember {m : MemberSpec} (hok : addMember f id h m = .ok h') : SameOutline h h' := by
  obtain ⟨type, -, hok⟩ := bind_eq_ok_iff.1 hok
  obtain ⟨span, -, hok⟩ := bind_eq_ok_iff.1 hok
  obtain ⟨⟨r, g⟩, hadd, rfl⟩ := map_eq_ok_iff.1 hok
  obtain ⟨c, hc, hnew, htype, rfl, rfl⟩ :=
    Hierarchy.addMember_eq_ok_iff.1 (mapError_eq_ok_iff.1 hadd)
  exact ⟨h.map_class?_withMember _ fun _ => rfl, fun hr => hr.accepts (.member hc hnew htype)⟩

theorem of_addConstructor {k : ConstructorSpec} (hok : c.addConstructor f id h k = .ok h') :
    SameOutline h h' := by
  obtain ⟨span, -, hok⟩ := bind_eq_ok_iff.1 hok
  obtain ⟨params, -, hok⟩ := bind_eq_ok_iff.1 hok
  obtain ⟨⟨r, g⟩, hadd, rfl⟩ := map_eq_ok_iff.1 hok
  obtain ⟨d, hd, htypes, htrail, hnew, rfl, rfl⟩ :=
    Hierarchy.addConstructor_eq_ok_iff.1 (mapError_eq_ok_iff.1 hadd)
  exact ⟨h.map_class?_withConstructor _ fun _ => rfl,
    fun hr => hr.accepts (.constructor hd htypes htrail hnew)⟩

end SameOutline

/-- Filling a class sets its implicit point and then adds content. -/
theorem sameOutline_of_fill (hok : fill f h (c, id) = .ok h') :
    ∃ h₁, c.setPoint f id h = .ok h₁ ∧ SameOutline h₁ h' := by
  obtain ⟨h₁, hpoint, hok⟩ := bind_eq_ok_iff.1 hok
  obtain ⟨h₂, hbases, hok⟩ := bind_eq_ok_iff.1 hok
  obtain ⟨h₃, hmembers, hok⟩ := bind_eq_ok_iff.1 hok
  refine ⟨h₁, hpoint, ?_⟩
  have h₂ : SameOutline h₁ h₂ :=
    foldlM_preserves (fun hb hs => hs.trans (.of_addBase hb)) hbases (.refl h₁)
  have h₃ : SameOutline h₁ h₃ :=
    foldlM_preserves (fun hm hs => hs.trans (.of_addMember hm)) hmembers h₂
  exact foldlM_preserves (fun hk hs => hs.trans (.of_addConstructor hk)) hok h₃

theorem setPoint_eq_ok (hok : c.setPoint f id h = .ok h') :
    (c.implicitDefaultPlace? = none ∧ h' = h) ∨
      ∃ p point r, c.implicitDefaultPlace? = some p ∧ f.placeSpan p = .ok point ∧
        h.class? id = some r ∧ h' = h.withPoint id point := by
  unfold setPoint at hok
  split at hok
  · next hnone =>
    cases hok
    exact Or.inl ⟨hnone, rfl⟩
  · next p hp =>
    obtain ⟨point, hpoint, hok⟩ := bind_eq_ok_iff.1 hok
    obtain ⟨⟨r, hr⟩, rfl⟩ :=
      Hierarchy.setImplicitDefaultPoint_eq_ok_iff.1 (mapError_eq_ok_iff.1 hok)
    exact Or.inr ⟨p, point, r, hp, hpoint, hr, rfl⟩

/-- A class that is filled reports its implicit constructor where the fixture says. -/
theorem recorded_of_fill (hok : fill f h (c, id) = .ok h')
    (hc : Recorded f h c ((c.place?.map (·.line)).getD 1) id) :
    Recorded f h' c c.defaultLine id := by
  obtain ⟨h₁, hpoint, hsame⟩ := sameOutline_of_fill hok
  refine Recorded.congr ?_ (hsame.outline id)
  rcases setPoint_eq_ok hpoint with ⟨hnone, rfl⟩ | ⟨p, point, r, hp, hspan, hr, rfl⟩
  · rwa [defaultLine, hnone, Option.none_or]
  · obtain ⟨r', hr', hname, -⟩ := hc
    rw [hr] at hr'
    cases hr'
    refine ⟨{ r with implicitDefaultPoint := point }, ?_, hname, ?_⟩
    · rw [Hierarchy.class?_withPoint, if_pos rfl, hr, Option.map_some]
    · unfold defaultLine
      rw [hp, SourceFile.lineOf_placeSpan hspan]
      rfl

/-- Filling a class leaves the outlines of the others alone. -/
theorem outline_of_fill {j : ClassId} (hok : fill f h (c, id) = .ok h') (hj : j ≠ id) :
    (h'.class? j).map outline = (h.class? j).map outline := by
  obtain ⟨h₁, hpoint, hsame⟩ := sameOutline_of_fill hok
  rw [hsame.outline]
  rcases setPoint_eq_ok hpoint with ⟨-, rfl⟩ | ⟨p, point, r, -, -, -, rfl⟩
  · rfl
  · rw [Hierarchy.class?_withPoint, if_neg hj]

theorem reachable_of_fill (hok : fill f h (c, id) = .ok h') (hr : h.Reachable) : h'.Reachable := by
  obtain ⟨h₁, hpoint, hsame⟩ := sameOutline_of_fill hok
  rcases setPoint_eq_ok hpoint with ⟨-, rfl⟩ | ⟨p, point, r, -, -, hc, rfl⟩
  · exact hsame.reachable hr
  · exact hsame.reachable (hr.accepts (.implicitDefaultPoint hc))

/-- Filling some classes leaves the outlines of all others alone. -/
theorem outline_of_fillAll {pairs : List (ClassSpec × ClassId)} {j : ClassId}
    (hok : pairs.foldlM (fill f) h = .ok h') (hj : j ∉ pairs.map (·.2)) :
    (h'.class? j).map outline = (h.class? j).map outline := by
  induction pairs generalizing h with
  | nil =>
    cases hok
    rfl
  | cons p pairs ih =>
    rw [List.foldlM_cons, bind_eq_ok_iff] at hok
    obtain ⟨h₁, hp, hok⟩ := hok
    rw [List.map_cons, List.mem_cons, not_or] at hj
    rw [ih hok hj.2, outline_of_fill hp hj.1]

/-- **Each class that is filled ends up as the fixture describes it.** -/
theorem recorded_of_fillAll {pairs : List (ClassSpec × ClassId)}
    (hok : pairs.foldlM (fill f) h = .ok h') (hnodup : (pairs.map (·.2)).Nodup)
    (hpairs : ∀ p ∈ pairs, Recorded f h p.1 ((p.1.place?.map (·.line)).getD 1) p.2) :
    ∀ p ∈ pairs, Recorded f h' p.1 p.1.defaultLine p.2 := by
  induction pairs generalizing h with
  | nil => exact fun p hp => absurd hp List.not_mem_nil
  | cons q pairs ih =>
    rw [List.foldlM_cons, bind_eq_ok_iff] at hok
    obtain ⟨h₁, hq, hok⟩ := hok
    obtain ⟨hnotin, hnodup⟩ := List.nodup_cons.1 hnodup
    intro p hp
    rcases List.mem_cons.1 hp with rfl | hp
    · exact (recorded_of_fill hq (hpairs p List.mem_cons_self)).congr
        (outline_of_fillAll hok hnotin)
    · refine ih hok hnodup (fun p hp => ?_) p hp
      have hne : p.2 ≠ q.2 := fun heq => hnotin (List.mem_map.2 ⟨p, hp, heq⟩)
      exact (hpairs p (List.mem_cons_of_mem _ hp)).congr (outline_of_fill hq hne)

end ClassSpec

/-! ## The hierarchy -/

namespace Fixture

variable {f : SourceFile} {classes : List ClassSpec} {h : Hierarchy}

theorem reachable_of_hierarchy (hok : hierarchy f classes = .ok h) : h.Reachable := by
  obtain ⟨⟨ids, h₁⟩, hdeclare, hfill⟩ := bind_eq_ok_iff.1 hok
  have hr := (ClassSpec.declareAll_spec hdeclare).reachable .empty
  exact foldlM_preserves (fun hp hr => ClassSpec.reachable_of_fill hp hr) hfill hr

/-- The classes of a fixture have different names. -/
theorem names_nodup_of_hierarchy (hok : hierarchy f classes = .ok h) :
    (classes.map (·.name)).Nodup := by
  obtain ⟨⟨ids, h₁⟩, hdeclare, -⟩ := bind_eq_ok_iff.1 hok
  exact (ClassSpec.declareAll_spec hdeclare).names_nodup

/-- **Each class record comes from a class of the fixture.** -/
theorem exists_spec_of_class (hok : hierarchy f classes = .ok h) {id : ClassId} {r : ClassDecl}
    (hr : h.class? id = some r) :
    ∃ c ∈ classes, c.name = r.name ∧ f.lineOf r.implicitDefaultPoint.start = c.defaultLine := by
  obtain ⟨⟨ids, h₁⟩, hdeclare, hfill⟩ := bind_eq_ok_iff.1 hok
  have hd := ClassSpec.declareAll_spec hdeclare
  have hids : (classes.zip ids).map (·.2) = ids :=
    List.map_snd_zip (Nat.le_of_eq hd.recorded.length_eq.symm)
  have hpairs : ∀ p ∈ classes.zip ids,
      ClassSpec.Recorded f h₁ p.1 ((p.1.place?.map (·.line)).getD 1) p.2 :=
    fun p hp => (List.forall₂_iff_zip.1 hd.recorded).2 hp
  -- a class that is not one of the fixture was not declared either
  have hid : id ∈ ids := by
    by_cases hid : id ∈ ids
    · exact hid
    · have hsame := ClassSpec.outline_of_fillAll hfill (hids.symm ▸ hid)
      rw [hr] at hsame
      obtain ⟨r₁, hr₁, -⟩ := Option.map_eq_some_iff.1 hsame.symm
      exact (hd.complete id r₁ hr₁).resolve_left (by simp)
  rw [← hids] at hid
  obtain ⟨⟨c, id'⟩, hp, rfl⟩ := List.mem_map.1 hid
  obtain ⟨r', hr', hname, hline⟩ :=
    ClassSpec.recorded_of_fillAll hfill (hids.symm ▸ hd.ids_nodup) hpairs _ hp
  rw [hr] at hr'
  cases hr'
  exact ⟨c, (List.of_mem_zip hp).1, hname.symm, hline⟩

end Fixture

end ConstructorCheck
