import ConstructorCheck.Proofs.Check.BaseAccess
import ConstructorCheck.Proofs.Check.Batch
/-!
# Findings in words

A finding refers to constructors by their ids, and its diagnostic looks them up. All of them are
constructors of the target, so each is found. What else a diagnostic consists of follows from the
kind of the finding.

* `Hierarchy.ConstructorOf` — a constructor of a class, its spelling and its place
* `Hierarchy.diagnostic_eq` — the parts of a diagnostic
* `Hierarchy.FoundAt.exists_constructorOf` — a finding refers to constructors of its target
* `Hierarchy.FoundAt.choosesInaccessible_iff` — when a chosen constructor is reported
* `Hierarchy.diagnostic_spec` — the diagnostic of a finding

Everything is read off the verdict on the site, except which candidates are tied: this is up to
resolution, which selects them among the candidates of the target (`candidates_sublist`).
-/

namespace ConstructorCheck

/-- A note about a span, worded as a message of the catalogue. -/
def Message.noteAt (m : Message) (args : List String) (fileName : Nat → String) (span : Span) :
    Note :=
  ⟨fileName span.file, span.start, span.length, m.text args, m.category, m.code⟩

namespace Hierarchy

variable {h : Hierarchy} {s : Site} {f : Finding} {t : ClassId} {cs : List Candidate}
  {k : ConstructorRef} {fileName : Nat → String}

/-! ## Constructors and their declarations -/

/-- A constructor of a declared class, as it is spelled and with the place where it is declared. -/
inductive ConstructorOf (h : Hierarchy) (t : ClassId) : ConstructorRef → String → Span → Prop where
  | declared {c : ClassDecl} {k : ConstructorDecl} (hc : h.class? t = some c)
      (hk : h.constructor? k.id = some k) (howner : k.owner = t) :
    ConstructorOf h t (.declared k.id)
      (c.name ++ "(" ++ ", ".intercalate (k.params.map h.paramName) ++ ")") k.span
  | implicit {c : ClassDecl} (hc : h.class? t = some c)
      (hnone : ∀ id k, h.constructor? id = some k → k.owner ≠ t) :
    ConstructorOf h t (.implicit t) (c.name ++ "()") c.span

theorem ConstructorOf.constructorName_eq {name : String} {span : Span}
    (hk : h.ConstructorOf t k name span) : h.constructorName k = name := by
  cases hk with
  | declared hc hk howner =>
    subst howner
    simp [constructorName, hk, signature, typeName, hc]
  | implicit hc => simp [constructorName, typeName, hc]

theorem ConstructorOf.constructorSpan_eq {name : String} {span : Span}
    (hk : h.ConstructorOf t k name span) : h.constructorSpan k = span := by
  cases hk with
  | declared hc hk => simp [constructorSpan, hk]
  | implicit hc => simp [constructorSpan, hc]

theorem IsCandidate.exists_constructorOf {c : Candidate} (hc : h.IsCandidate t c) {d : ClassDecl}
    (hd : h.class? t = some d) : ∃ name span, h.ConstructorOf t c.constructor name span := by
  cases hc with
  | declared hk howner => exact ⟨_, _, .declared hd hk howner⟩
  | implicit hnone => exact ⟨_, _, .implicit hd hnone⟩

/-! ## The parts of a diagnostic -/

/-- The note with which a diagnostic points out a constructor. -/
def constructorNote (h : Hierarchy) (fileName : Nat → String) (m : Message) (args : List String)
    (k : ConstructorRef) : Note :=
  m.noteAt args fileName (h.constructorSpan k)

/-- The note on the constructor that was chosen, if one was. -/
def chosenNotes (h : Hierarchy) (fileName : Nat → String) (f : Finding) : List Note :=
  match f.constructor?, f.access? with
  | some k, some access =>
    [h.constructorNote fileName .declaredHere [h.constructorName k, access.keyword] k]
  | _, _ => []

/-- The notes on the first candidates. -/
def candidateNotes (h : Hierarchy) (fileName : Nat → String) (f : Finding) : List Note :=
  (f.candidates.take maxCandidateNotes).map fun k =>
    h.constructorNote fileName .candidateConstructor [h.constructorName k] k

theorem withConstructorNote_eq (d : Diagnostic) (k : ConstructorRef) (m : Message)
    (args : List String) : h.withConstructorNote fileName d k m args =
      { d with notes := d.notes ++ [h.constructorNote fileName m args k] } := by
  have hcategory : Diagnostic.noteCategory m.code = m.category := by
    rw [Diagnostic.noteCategory, Message.ofCode?_code]
    rfl
  rw [withConstructorNote, Diagnostic.withNote, hcategory]
  rfl

/-- Each candidate adds a note. -/
theorem foldl_withConstructorNote (d : Diagnostic) (m : Message)
    (args : ConstructorRef → List String) (ks : List ConstructorRef) :
    ks.foldl (fun d k => h.withConstructorNote fileName d k m (args k)) d =
      { d with notes := d.notes ++ ks.map fun k => h.constructorNote fileName m (args k) k } := by
  induction ks generalizing d with
  | nil => rw [List.map_nil, List.append_nil]; rfl
  | cons k ks ih =>
    rw [List.foldl_cons, withConstructorNote_eq, ih, List.map_cons, List.append_assoc]
    rfl

/-- **The parts of a diagnostic.** -/
theorem diagnostic_eq (h : Hierarchy) (fileName : Nat → String) (related : Bool) (f : Finding) :
    h.diagnostic fileName related f =
      { file := fileName f.location.file
        start := f.location.start
        length := f.location.length
        text := (h.findingMessage f).1.text (h.findingMessage f).2
        category := .error
        code := (h.findingMessage f).1.code
        notes :=
          if related then h.chosenNotes fileName f ++ h.candidateNotes fileName f else [] } := by
  cases related with
  | false => rfl
  | true =>
    simp only [diagnostic, foldl_withConstructorNote]
    cases hk : f.constructor? with
    | none => simp only [chosenNotes, hk]; rfl
    | some k =>
      cases haccess : f.access? with
      | none => simp only [chosenNotes, hk, haccess]; rfl
      | some access => simp only [chosenNotes, hk, haccess, withConstructorNote_eq]; rfl

/-! ## What a finding refers to -/

/-- Only a site with a target has a verdict. -/
theorem exists_targetOf_of_checkSite (hw : h.WellFormed) {v : Option Finding}
    (hcheck : h.checkSite s = .ok v) : ∃ t, h.targetOf s = .ok t := by
  cases ht : h.targetOf s with
  | ok t => exact ⟨t, rfl⟩
  | error e =>
    rw [(checkSite_eq_error_iff hw).2 ht] at hcheck
    cases hcheck

/-- The candidates of a finding are among those of the target, in their order. -/
theorem candidates_sublist (ht : h.targetOf s = .ok t) (hcs : h.candidatesOf t = .ok cs)
    (hcheck : h.checkSite s = .ok (some f)) :
    f.candidates.Sublist (cs.map (·.constructor)) := by
  obtain ⟨g, hg, hf⟩ := bind_eq_ok_iff.1 hcheck
  rw [gather_eq_ok ht hcs, Except.ok.injEq] at hg
  subst hg
  split at hf
  · next hmissing =>
    split at hmissing
    · cases hmissing
      cases hf
      exact List.Sublist.refl _
    · cases hmissing
  · next hgathered =>
    split at hgathered
    · cases hgathered
    · cases hgathered
      split at hf
      · next tied hres =>
        cases hf
        obtain ⟨keep, rfl, -⟩ := exists_keep_of_ambiguous hres
        exact List.filter_sublist.map _
      · cases hf
        exact List.Sublist.refl _
      · next w hres =>
        have haccess : h.accessFinding s w.candidate = some f := Except.ok.inj hf
        unfold accessFinding at haccess
        split at haccess
        · cases haccess
        · cases haccess
          exact List.nil_sublist _

/--
A finding at a site with the target `t` and the candidates `cs` is about a declared constructor that
is the best candidate and may not be called there, or about some of the candidates.
-/
inductive FoundAt (h : Hierarchy) (s : Site) (t : ClassId) (cs : List Candidate) :
    Finding → Prop where
  | inaccessible {k : ConstructorDecl} (hk : h.constructor? k.id = some k) (howner : k.owner = t)
      (hbest : h.IsBest s.arguments (k.candidate t) cs)
      (haccess : h.isAccessible k.access t s.context = false) :
    FoundAt h s t cs (.inaccessible s (k.candidate t))
  | other {kind : FindingKind} {ks : List ConstructorRef} (hkind : kind ≠ .inaccessibleConstructor)
      (hks : ks.Sublist (cs.map (·.constructor)))
      (hnot : ¬ ∃ c, h.IsBest s.arguments c cs ∧
        h.isAccessible c.access c.declaring s.context = false) :
    FoundAt h s t cs (.atSite kind s t ks)

theorem foundAt_of_checkSite (hw : h.WellFormed) (ht : h.targetOf s = .ok t)
    (hcs : h.candidatesOf t = .ok cs) (hcheck : h.checkSite s = .ok (some f)) :
    h.FoundAt s t cs f := by
  obtain ⟨v, hv, hverdict⟩ := exists_verdict ht hcs
  rw [hcheck, Except.ok.injEq] at hv
  subst hv
  have hks := candidates_sublist ht hcs hcheck
  have hnot (hkind : f.kind ≠ .inaccessibleConstructor) :=
    mt hverdict.kind_eq_inaccessible_iff.2 fun heq => hkind (Option.some.inj heq)
  cases hverdict with
  | inaccessible hbest haccess =>
    cases (mem_candidatesOf_iff hw hcs).1 hbest.mem with
    | declared hk howner => exact .inaccessible hk howner hbest haccess
    | implicit => cases haccess
  | ambiguous => exact .other nofun hks (hnot nofun)
  | noViable => exact .other nofun hks (hnot nofun)
  | missingDefault => exact .other nofun hks (hnot nofun)

namespace FoundAt

variable (hf : h.FoundAt s t cs f)
include hf

theorem target_eq : f.target = t := by
  cases hf <;> rfl

theorem location_eq : f.location = s.location := by
  cases hf <;> rfl

/-- The chosen constructor and the candidates of a finding are candidates at the site. -/
theorem exists_candidate (hk : f.constructor? = some k ∨ k ∈ f.candidates) :
    ∃ c ∈ cs, c.constructor = k := by
  cases hf with
  | inaccessible _ _ hbest =>
    rcases hk with hk | hk
    · exact ⟨_, hbest.mem, Option.some.inj hk⟩
    · cases hk
  | other _ hks =>
    rcases hk with hk | hk
    · cases hk
    · exact List.mem_map.1 (hks.subset hk)

/-- **A finding refers to constructors of its target.** -/
theorem exists_constructorOf (hw : h.WellFormed) (ht : h.targetOf s = .ok t)
    (hcs : h.candidatesOf t = .ok cs) (hk : f.constructor? = some k ∨ k ∈ f.candidates) :
    ∃ name span, h.ConstructorOf f.target k name span := by
  obtain ⟨c, hc, rfl⟩ := hf.exists_candidate hk
  obtain ⟨d, hd⟩ := targetOf_declared hw ht
  rw [hf.target_eq]
  exact ((mem_candidatesOf_iff hw hcs).1 hc).exists_constructorOf hd

/-- What is public may be used everywhere. -/
theorem access?_ne_protected_iff (hkind : f.kind = .inaccessibleConstructor) :
    f.access? ≠ some .protectedAccess ↔ f.access? = some .privateAccess := by
  cases hf with
  | @inaccessible k _ _ _ haccess =>
    show some k.access ≠ _ ↔ some k.access = _
    cases hk : k.access with
    | publicAccess => rw [hk] at haccess; cases haccess
    | protectedAccess => decide
    | privateAccess => decide
  | other hne => exact absurd hkind hne

end FoundAt

/-- The call at a site chooses a constructor with some access, which it may not use. -/
def ChoosesInaccessible (h : Hierarchy) (s : Site) (a : Access) : Prop :=
  ∃ t cs w, h.targetOf s = .ok t ∧ h.candidatesOf t = .ok cs ∧
    h.resolve cs s.arguments = .resolved w ∧ w.candidate.access = a ∧
      h.isAccessible a w.candidate.declaring s.context = false

/-- **A chosen constructor is reported when it may not be used**, with its access. -/
theorem FoundAt.choosesInaccessible_iff (ht : h.targetOf s = .ok t)
    (hcs : h.candidatesOf t = .ok cs) (hf : h.FoundAt s t cs f) {a : Access} :
    h.ChoosesInaccessible s a ↔ f.kind = .inaccessibleConstructor ∧ f.access? = some a := by
  -- what resolution chooses is the best candidate
  have hiff : h.ChoosesInaccessible s a ↔ ∃ c, h.IsBest s.arguments c cs ∧ c.access = a ∧
      h.isAccessible a c.declaring s.context = false := by
    constructor
    · rintro ⟨t', cs', w, ht', hcs', hres, hw⟩
      obtain rfl : t = t' := Except.ok.inj (ht.symm.trans ht')
      obtain rfl : cs = cs' := Except.ok.inj (hcs.symm.trans hcs')
      exact ⟨w.candidate, (resolve_eq_resolved_iff.1 hres).1, hw⟩
    · rintro ⟨c, hbest, hc⟩
      obtain ⟨rs, hrs⟩ := viable_iff_exists_ranks.1 hbest.viable
      exact ⟨t, cs, ⟨c, rs⟩, ht, hcs, resolve_eq_resolved_iff.2 ⟨hbest, hrs⟩, hc⟩
  rw [hiff]
  cases hf with
  | @inaccessible k hk howner hbest haccess =>
    constructor
    · rintro ⟨c, hc, rfl, -⟩
      rw [hc.unique hbest]
      exact ⟨rfl, rfl⟩
    · rintro ⟨-, ha⟩
      obtain rfl : k.access = a := Option.some.inj ha
      exact ⟨_, hbest, rfl, haccess⟩
  | other hkind _ hnot =>
    refine iff_of_false ?_ fun h => hkind h.1
    rintro ⟨c, hbest, rfl, haccess⟩
    exact hnot ⟨c, hbest, haccess⟩

/-! ## The diagnostic of a finding -/

/-- The code of a diagnostic tells the kind of the finding, and whether the access is protected. -/
theorem code_findingMessage_iff (h : Hierarchy) (f : Finding) :
    let n := (h.findingMessage f).1.code
    (n = 4001 ↔ f.kind = .inaccessibleConstructor ∧ f.access? ≠ some .protectedAccess) ∧
    (n = 4002 ↔ f.kind = .inaccessibleConstructor ∧ f.access? = some .protectedAccess) ∧
    (n = 4003 ↔ f.kind = .noViableConstructor) ∧
    (n = 4004 ↔ f.kind = .ambiguousConstructor) ∧
    (n = 4005 ↔ f.kind = .missingImplicitDefault) := by
  cases hkind : f.kind with
  | inaccessibleConstructor =>
    by_cases haccess : f.access? = some .protectedAccess
    · simp [findingMessage, hkind, haccess, Message.code]
    · simp [findingMessage, hkind, haccess, Message.code]
  | noViableConstructor => simp [findingMessage, hkind, Message.code]
  | ambiguousConstructor => simp [findingMessage, hkind, Message.code]
  | missingImplicitDefault => simp [findingMessage, hkind, Message.code]

/-- A chosen constructor is pointed out at its declaration. -/
theorem FoundAt.exists_notes_eq (hf : h.FoundAt s t cs f) {d : ClassDecl} (hd : h.class? t = some d)
    (hkind : f.kind = .inaccessibleConstructor) (fileName : Nat → String) :
    ∃ k name, h.constructor? k.id = some k ∧ k.owner = f.target ∧
      h.ConstructorOf f.target (.declared k.id) name k.span ∧
      f.constructor? = some (.declared k.id) ∧
      h.chosenNotes fileName f ++ h.candidateNotes fileName f =
        [Message.declaredHere.noteAt [name, k.access.keyword] fileName k.span] := by
  cases hf with
  | @inaccessible k hk howner =>
    have hof := ConstructorOf.declared hd hk howner
    refine ⟨k, _, hk, howner, hof, rfl, ?_⟩
    rw [← hof.constructorName_eq, ← hof.constructorSpan_eq]
    rfl
  | other hne => exact absurd hkind hne

/-- The first candidates are pointed out where they are declared. -/
theorem FoundAt.forall₂_notes (hf : h.FoundAt s t cs f)
    (hkind : f.kind ≠ .inaccessibleConstructor)
    (hof : ∀ k ∈ f.candidates, ∃ name span, h.ConstructorOf f.target k name span)
    (fileName : Nat → String) :
    List.Forall₂ (fun k note => ∃ name span, h.ConstructorOf f.target k name span ∧
        note = Message.candidateConstructor.noteAt [name] fileName span)
      (f.candidates.take maxCandidateNotes)
      (h.chosenNotes fileName f ++ h.candidateNotes fileName f) := by
  have hchosen : h.chosenNotes fileName f = [] := by
    cases hf with
    | inaccessible => exact absurd rfl hkind
    | other => rfl
  rw [hchosen, List.nil_append, candidateNotes, List.forall₂_map_right_iff, List.forall₂_same]
  intro k hk
  obtain ⟨name, span, hk⟩ := hof k (List.mem_of_mem_take hk)
  refine ⟨name, span, hk, ?_⟩
  rw [constructorNote, hk.constructorName_eq, hk.constructorSpan_eq]

end Hierarchy

end ConstructorCheck
