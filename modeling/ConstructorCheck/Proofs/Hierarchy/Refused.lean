import ConstructorCheck.Hierarchy.InPlace
import ConstructorCheck.Proofs.Hierarchy.WellFormed
/-!
# Refused declarations

Whoever changes a hierarchy in place and fails half-way leaves a trace. Declarations never do: the
only check that comes after a change is whether the owner of the new record exists, and it has been
made before.

* `run_declare` — in place, a declaration comes to what `Hierarchy.declare` says of it
* `eq_of_run_declare_eq_error` — a refused declaration leaves the hierarchy as it was
* `declareAll_accepted` — the refused declarations of a run could as well not have been made
* `refused_leaves_no_trace` — all of it
-/

namespace ConstructorCheck

namespace InPlace

variable {α β : Type} {h h' : Hierarchy} {id : ClassId}

/-! ## Steps in place -/

/-- The outcome in place of an operation that returns the new hierarchy. -/
def settle (h : Hierarchy) :
    Except HierarchyError (α × Hierarchy) → EStateM.Result HierarchyError Hierarchy α
  | .ok (a, h') => .ok a h'
  | .error e => .error e h

theorem run_bind_of_ok {x : InPlace α} {f : α → InPlace β} {a : α} (hx : x.run h = .ok a h') :
    (x >>= f).run h = (f a).run h' := by
  show EStateM.bind x f h = _
  rw [EStateM.bind, show x h = .ok a h' from hx]
  rfl

theorem run_bind_of_error {x : InPlace α} {f : α → InPlace β} {e : HierarchyError}
    (hx : x.run h = .error e h') : (x >>= f).run h = .error e h' := by
  show EStateM.bind x f h = _
  rw [EStateM.bind, show x h = .error e h' from hx]

theorem run_bind_modify (g : Hierarchy → Hierarchy) (f : PUnit → InPlace β) :
    (modify g >>= f).run h = (f ⟨⟩).run (g h) := rfl

theorem run_getClass (h : Hierarchy) (id : ClassId) :
    (getClass id).run h =
      match h.class? id with
      | some c => .ok c h
      | none => .error (.lookup (.unknownClass id)) h := by
  show EStateM.run (match h.class? id with
    | some c => pure c
    | none => throw (.lookup (.unknownClass id)) : InPlace ClassDecl) h = _
  cases h.class? id with
  | some c => rfl
  | none => rfl

theorem run_getClass_of_some {c : ClassDecl} (hc : h.class? id = some c) :
    (getClass id).run h = .ok c h := by
  rw [run_getClass, hc]

theorem run_getClass_of_none (hc : h.class? id = none) :
    (getClass id).run h = .error (.lookup (.unknownClass id)) h := by
  rw [run_getClass, hc]

/-- Changing a recorded class does not fail. -/
theorem run_changeClass {c : ClassDecl} (hc : h.class? id = some c) (f : ClassDecl → ClassDecl) :
    (changeClass id f).run h = .ok () (h.modifyClass id f) :=
  run_bind_of_ok (run_getClass_of_some hc)

theorem run_ensureType_of_known {t : TypeRef} (ht : h.knowsType t = true) :
    (ensureType t).run h = .ok () h := by
  cases t with
  | primitive p => rfl
  | ofClass id =>
    obtain ⟨c, hc⟩ := Hierarchy.knowsType_ofClass_iff.1 ht
    exact run_bind_of_ok (run_getClass_of_some hc)

theorem run_ensureType_of_unknown (hid : h.knowsType (.ofClass id) = false) :
    (ensureType (.ofClass id)).run h = .error (.lookup (.unknownClass id)) h := by
  have hc : h.class? id = none := by
    rw [Option.eq_none_iff_forall_ne_some]
    intro c hc
    rw [Hierarchy.knowsType_ofClass_iff.2 ⟨c, hc⟩] at hid
    cases hid
  exact run_bind_of_error (run_getClass_of_none hc)

/-- The checks of some types one after the other stop where `firstUnknown?` finds a class. -/
theorem run_ensureTypes (h : Hierarchy) (types : List TypeRef) :
    (ensureTypes types).run h =
      match h.firstUnknown? types with
      | some id => .error (.lookup (.unknownClass id)) h
      | none => .ok () h := by
  induction types with
  | nil => rfl
  | cons t types ih =>
    rw [ensureTypes, Hierarchy.firstUnknown?, List.find?_cons]
    cases ht : h.knowsType t with
    | true => exact (run_bind_of_ok (run_ensureType_of_known ht)).trans ih
    | false =>
      cases t with
      | primitive p => cases ht
      | ofClass id => exact run_bind_of_error (run_ensureType_of_unknown ht)

theorem run_ensureTypes_of_some {types : List TypeRef} (hid : h.firstUnknown? types = some id) :
    (ensureTypes types).run h = .error (.lookup (.unknownClass id)) h := by
  rw [run_ensureTypes, hid]

theorem run_ensureTypes_of_none {types : List TypeRef} (hnone : h.firstUnknown? types = none) :
    (ensureTypes types).run h = .ok () h := by
  rw [run_ensureTypes, hnone]

/-! ## Operations in place -/

theorem run_declareClass (h : Hierarchy) (name : String) (span : Span) :
    (declareClass name span).run h = settle h (h.declareClass name span) := by
  show EStateM.run (if (h.names.lookup name).isSome = true then _ else _ : InPlace ClassId) h = _
  unfold Hierarchy.declareClass
  split
  · rfl
  · rfl

theorem run_setImplicitDefaultPoint (h : Hierarchy) (id : ClassId) (point : Span) :
    (setImplicitDefaultPoint id point).run h =
      settle h ((h.setImplicitDefaultPoint id point).map fun h' => ((), h')) := by
  unfold Hierarchy.setImplicitDefaultPoint Hierarchy.declaredClass
  cases hc : h.class? id with
  | none => exact run_bind_of_error (run_getClass_of_none hc)
  | some c => exact run_changeClass hc _

theorem run_addBase (h : Hierarchy) (derived base : ClassId) (access : Access) (span : Span) :
    (addBase derived base access span).run h =
      settle h ((h.addBase derived base access span).map fun h' => ((), h')) := by
  unfold Hierarchy.addBase Hierarchy.declaredClass
  cases hd : h.class? derived with
  | none => exact run_bind_of_error (run_getClass_of_none hd)
  | some d =>
    refine (run_bind_of_ok (run_getClass_of_some hd)).trans ?_
    cases hb : h.class? base with
    | none => exact run_bind_of_error (run_getClass_of_none hb)
    | some b =>
      refine (run_bind_of_ok (run_getClass_of_some hb)).trans ?_
      show EStateM.run (ite _ _ _) h = settle h (Except.map _ (ite _ _ _))
      split
      · rfl
      split
      · rfl
      split
      · rfl
      split
      · rfl
      exact run_changeClass hd _

theorem run_addMember (h : Hierarchy) (owner : ClassId) (name : String) (type : TypeRef)
    (access : Access) (defaultInit? : Option Bool) (span : Span) :
    (addMember owner name type access defaultInit? span).run h =
      settle h (h.addMember owner name type access defaultInit? span) := by
  unfold Hierarchy.addMember Hierarchy.declaredClass
  cases hc : h.class? owner with
  | none => exact run_bind_of_error (run_getClass_of_none hc)
  | some c =>
    refine (run_bind_of_ok (run_getClass_of_some hc)).trans ?_
    show EStateM.run (ite _ _ _) h = settle h (ite _ _ _)
    split
    · rfl
    cases hknown : h.firstUnknown? [type] with
    | some id => exact run_bind_of_error (run_ensureTypes_of_some hknown)
    | none =>
      refine (run_bind_of_ok (run_ensureTypes_of_none hknown)).trans ?_
      refine (run_bind_modify _ _).trans ?_
      -- the owner has been found before and is still there
      refine run_bind_of_ok (run_changeClass (c := c) ?_ _)
      exact hc

theorem run_addConstructor (h : Hierarchy) (owner : ClassId) (params : List Param)
    (access : Access) (span : Span) :
    (addConstructor owner params access span).run h =
      settle h (h.addConstructor owner params access span) := by
  unfold Hierarchy.addConstructor Hierarchy.declaredClass
  cases hc : h.class? owner with
  | none => exact run_bind_of_error (run_getClass_of_none hc)
  | some c =>
    refine (run_bind_of_ok (run_getClass_of_some hc)).trans ?_
    cases hknown : h.firstUnknown? (params.map (·.type)) with
    | some id =>
      refine (run_bind_of_error (run_ensureTypes_of_some hknown)).trans ?_
      simp only [bind, Except.bind]
      rfl
    | none =>
      refine (run_bind_of_ok (run_ensureTypes_of_none hknown)).trans ?_
      simp only [bind, Except.bind]
      split
      · rfl
      refine (run_bind_of_ok (run_getClass_of_some hc)).trans ?_
      split
      · rfl
      refine (run_bind_modify _ _).trans ?_
      refine run_bind_of_ok (run_changeClass (c := c) ?_ _)
      exact hc

theorem run_bind_pure {x : InPlace α} {y : Except HierarchyError (α × Hierarchy)}
    (hx : x.run h = settle h y) (f : α → β) :
    (x >>= fun a => pure (f a)).run h = settle h (y.map fun r => (f r.1, r.2)) := by
  cases y with
  | ok r => exact run_bind_of_ok hx
  | error e => exact run_bind_of_error hx

/-- **Carried out in place, a declaration comes to the same.** A refusal takes nothing with it. -/
theorem run_declare (h : Hierarchy) (d : Declaration) :
    (declare d).run h = settle h (h.declare d) := by
  cases d with
  | newClass name span => exact run_bind_pure (run_declareClass h name span) _
  | implicitDefaultPoint id point =>
    refine (run_bind_pure (run_setImplicitDefaultPoint h id point) _).trans ?_
    rw [Hierarchy.declare]
    cases h.setImplicitDefaultPoint id point with
    | ok h' => rfl
    | error e => rfl
  | base derived base access span =>
    refine (run_bind_pure (run_addBase h derived base access span) _).trans ?_
    rw [Hierarchy.declare]
    cases h.addBase derived base access span with
    | ok h' => rfl
    | error e => rfl
  | member owner name type access defaultInit? span =>
    exact run_bind_pure (run_addMember h owner name type access defaultInit? span) _
  | constructor owner params access span =>
    exact run_bind_pure (run_addConstructor h owner params access span) _

theorem run_declare_eq_ok_iff {d : Declaration} {r : Declared} :
    (declare d).run h = .ok r h' ↔ h.declare d = .ok (r, h') := by
  rw [run_declare]
  cases h.declare d with
  | ok p => simp [settle, Prod.ext_iff]
  | error e => simp [settle]

theorem run_declare_eq_error {d : Declaration} {e : HierarchyError} (hd : h.declare d = .error e) :
    (declare d).run h = .error e h := by
  rw [run_declare, hd]
  rfl

/-- **A refused declaration leaves the hierarchy as it was.** -/
theorem eq_of_run_declare_eq_error {d : Declaration} {e : HierarchyError}
    (herr : (declare d).run h = .error e h') : h' = h := by
  rw [run_declare] at herr
  cases hd : h.declare d with
  | ok p =>
    rw [hd] at herr
    cases herr
  | error e' =>
    rw [hd] at herr
    cases herr
    rfl

/-! ## Runs -/

theorem declareAll_cons_of_ok {d : Declaration} {ds : List Declaration} {r : Declared}
    (hd : (declare d).run h = .ok r h') :
    declareAll h (d :: ds) = (.ok r :: (declareAll h' ds).1, (declareAll h' ds).2) := by
  rw [declareAll, hd]

theorem declareAll_cons_of_error {d : Declaration} {ds : List Declaration} {e : HierarchyError}
    (hd : (declare d).run h = .error e h') :
    declareAll h (d :: ds) = (.error e :: (declareAll h ds).1, (declareAll h ds).2) := by
  rw [declareAll, hd, eq_of_run_declare_eq_error hd]

theorem accepted_cons_of_ok {d : Declaration} {ds : List Declaration} {r : Declared}
    (hd : (declare d).run h = .ok r h') : accepted h (d :: ds) = d :: accepted h' ds := by
  rw [accepted, declareAll_cons_of_ok hd]
  rfl

theorem accepted_cons_of_error {d : Declaration} {ds : List Declaration} {e : HierarchyError}
    (hd : (declare d).run h = .error e h') : accepted h (d :: ds) = accepted h ds := by
  rw [accepted, declareAll_cons_of_error hd]
  rfl

/-- **Without the refused declarations a run gives the same answers and ends the same way.** -/
theorem declareAll_accepted (h : Hierarchy) (ds : List Declaration) :
    declareAll h (accepted h ds) =
      ((declareAll h ds).1.filter (·.isOk), (declareAll h ds).2) := by
  induction ds generalizing h with
  | nil => rfl
  | cons d ds ih =>
    cases hd : (declare d).run h with
    | ok r h' =>
      rw [accepted_cons_of_ok hd, declareAll_cons_of_ok hd, declareAll_cons_of_ok hd, ih]
      rfl
    | error e h' =>
      rw [accepted_cons_of_error hd, declareAll_cons_of_error hd, ih]
      rfl

theorem declareAll_eq_run (h : Hierarchy) (ds : List Declaration) :
    (declareAll h ds).2 = h.run ds := by
  induction ds generalizing h with
  | nil => rfl
  | cons d ds ih =>
    show _ = (h.step d).run ds
    cases hd : (declare d).run h with
    | ok r h' =>
      rw [declareAll_cons_of_ok hd, ih, Hierarchy.step, run_declare_eq_ok_iff.1 hd]
    | error e h' =>
      have hstep : h.step d = h := by
        rw [run_declare] at hd
        unfold Hierarchy.step
        cases hpure : h.declare d with
        | ok p => rw [hpure] at hd; cases hd
        | error e' => rfl
      rw [declareAll_cons_of_error hd, ih, hstep]

/--
**A refused declaration leaves no trace.** All four tables are as they were before. So a run with
refused declarations in between ends with the same hierarchy as the run without them, and the
accepted ones get the same answers. What is accepted, and what it does, is what
`Hierarchy.declare` and `Hierarchy.run` say.
-/
theorem refused_leaves_no_trace (h : Hierarchy) :
    (∀ d e h', (declare d).run h = .error e h' →
      h'.classes = h.classes ∧ h'.members = h.members ∧
        h'.constructors = h.constructors ∧ h'.names = h.names) ∧
    (∀ ds, declareAll h (accepted h ds) =
      ((declareAll h ds).1.filter (·.isOk), (declareAll h ds).2)) ∧
    (∀ d r h', (declare d).run h = .ok r h' ↔ h.declare d = .ok (r, h')) ∧
    ∀ ds, (declareAll h ds).2 = h.run ds := by
  refine ⟨fun d e h' herr => ?_, declareAll_accepted h, fun _ _ _ => run_declare_eq_ok_iff,
    declareAll_eq_run h⟩
  rw [eq_of_run_declare_eq_error herr]
  exact ⟨rfl, rfl, rfl, rfl⟩

/-- A second member of one name is refused, and the constructor that follows gets the first id. -/
theorem refused_leaves_no_trace_second_member :
    let count (type : Primitive) : Declaration :=
      .member ⟨0⟩ "count" (.primitive type) .publicAccess none .unknown
    let ds : List Declaration := [.newClass "Part" .unknown, count .int, count .bool,
      .constructor ⟨0⟩ [] .publicAccess .unknown]
    let h := (declareAll .empty (ds.take 2)).2
    (∃ e h', (declare (count .bool)).run h = .error e h' ∧ h'.members = h.members) ∧
      declareAll .empty [.newClass "Part" .unknown, count .int,
        .constructor ⟨0⟩ [] .publicAccess .unknown] =
      ([.ok (.ofClass ⟨0⟩), .ok (.ofMember ⟨0⟩), .ok (.ofConstructor ⟨0⟩)],
        (declareAll .empty ds).2) := by
  intro count ds h
  refine ⟨?_, (refused_leaves_no_trace .empty).2.1 ds⟩
  have hrun : ∃ e h', (declare (count .bool)).run h = .error e h' := ⟨_, _, rfl⟩
  obtain ⟨e, h', herr⟩ := hrun
  exact ⟨e, h', herr, ((refused_leaves_no_trace h).1 _ e h' herr).2.1⟩

end InPlace

end ConstructorCheck
