import ConstructorCheck.Check.Definition
import ConstructorCheck.Proofs.Check.Verdict
import ConstructorCheck.Proofs.Overload.Mapping
import ConstructorCheck.Proofs.Renaming.Basic
/-!
# Checking renamed hierarchies

Nothing that the checker decides depends on the ids of the records. In a renamed hierarchy every
stage of a check comes to what it came to before, renamed, and a failure has the renamed error.

* `resolve` — the same candidate wins
* `checkSite` — a site gets the same verdict
* `sitesOf`, `implicitSitesOf` — a definition has the same sites, in the same order
-/

namespace ConstructorCheck

namespace Renaming

variable (ρ : Renaming)

/-! ## What is renamed -/

def constructorRef : ConstructorRef → ConstructorRef
  | .declared id => .declared (ρ.ofConstructor id)
  | .implicit id => .implicit (ρ.ofClass id)

def candidate (c : Candidate) : Candidate :=
  { c with
    constructor := ρ.constructorRef c.constructor
    declaring := ρ.ofClass c.declaring
    params := c.params.map ρ.param }

def ranked (e : Ranked) : Ranked := { e with candidate := ρ.candidate e.candidate }

def resolution : Resolution → Resolution
  | .resolved winner => .resolved (ρ.ranked winner)
  | .ambiguous tied => .ambiguous (tied.map ρ.constructorRef)
  | .noMatch => .noMatch

def subject : Subject → Subject
  | .base id => .base (ρ.ofClass id)
  | .member id => .member (ρ.ofMember id)

def site (s : Site) : Site :=
  { s with
    context := ρ.ofClass s.context
    subject := ρ.subject s.subject
    arguments? := s.arguments?.map (List.map ρ.type) }

def checkError : CheckError → CheckError
  | .lookup e => .lookup (ρ.lookupError e)
  | e => e

def gathered : Gathered → Gathered
  | .candidates target cs => .candidates (ρ.ofClass target) (cs.map ρ.candidate)
  | .missingDefault target considered =>
    .missingDefault (ρ.ofClass target) (considered.map ρ.constructorRef)

def finding (x : Finding) : Finding :=
  { x with
    target := ρ.ofClass x.target
    constructor? := x.constructor?.map ρ.constructorRef
    candidates := x.candidates.map ρ.constructorRef
    site := ρ.site x.site }

def entry (e : Entry) : Entry := { e with arguments := e.arguments.map ρ.type }

def definition (d : Definition) : Definition :=
  { d with owner := ρ.ofClass d.owner, entries := d.entries.map ρ.entry }

theorem subject_injective : Function.Injective ρ.subject := by
  intro s t hst
  cases s with
  | base id =>
    cases t with
    | base id' => rw [ρ.ofClass.injective (Subject.base.inj hst)]
    | member id' => cases hst
  | member id =>
    cases t with
    | base id' => cases hst
    | member id' => rw [ρ.ofMember.injective (Subject.member.inj hst)]

@[simp] theorem isImplicit_site (s : Site) : (ρ.site s).isImplicit = s.isImplicit := by
  simp [site, Site.isImplicit]

@[simp] theorem arguments_site (s : Site) : (ρ.site s).arguments = s.arguments.map ρ.type := by
  simp only [site, Site.arguments]
  cases s.arguments? <;> rfl

/-! Arities look at the defaults of the parameters, which stay. -/

@[simp] theorem requiredArity_map (ps : List Param) :
    requiredArity (ps.map ρ.param) = requiredArity ps := by
  rw [requiredArity, List.takeWhile_map, List.length_map]
  rfl

@[simp] theorem acceptsArity_map (ps : List Param) (n : Nat) :
    acceptsArity (ps.map ρ.param) n = acceptsArity ps n := by
  rw [acceptsArity, requiredArity_map, List.length_map]
  rfl

@[simp] theorem isDefault_candidate (c : Candidate) : (ρ.candidate c).isDefault = c.isDefault := by
  rw [Candidate.isDefault, candidate, requiredArity_map]
  rfl

@[simp] theorem map_constructor (cs : List Candidate) :
    (cs.map ρ.candidate).map (·.constructor) = (cs.map (·.constructor)).map ρ.constructorRef := by
  rw [List.map_map, List.map_map]
  rfl

variable {ρ} {h h' : Hierarchy}

namespace Renames

/-! ## Overload resolution -/

theorem conversionRank (hr : ρ.Renames h h') (arg param : TypeRef) :
    h'.conversionRank (ρ.type arg) (ρ.type param) = h.conversionRank arg param := by
  unfold Hierarchy.conversionRank
  rw [if_congr ρ.type_injective.eq_iff rfl rfl]
  cases arg with
  | primitive p => cases param <;> rfl
  | ofClass a =>
    cases param with
    | primitive q => rfl
    | ofClass b => simp only [type, hr.isAccessibleBase]

theorem candidatesOf (hr : ρ.Renames h h') (id : ClassId) :
    h'.candidatesOf (ρ.ofClass id) =
      relabel ρ.lookupError (List.map ρ.candidate) (h.candidatesOf id) := by
  rw [Hierarchy.candidatesOf, hr.ownConstructors]
  refine relabel_map fun ks => ?_
  rw [List.isEmpty_map]
  split
  · rfl
  · rw [List.map_map, List.map_map]
    rfl

theorem ranks? (hr : ρ.Renames h h') (args : List TypeRef) (c : Candidate) :
    h'.ranks? (args.map ρ.type) (ρ.candidate c) = h.ranks? args c := by
  unfold Hierarchy.ranks?
  rw [show (ρ.candidate c).params = c.params.map ρ.param from rfl, acceptsArity_map,
    List.length_map, List.zip_map, List.mapM_map]
  simp only [Function.comp_def, Prod.map_fst, Prod.map_snd, param, hr.conversionRank]

/-- **The candidate that wins a call wins it under new ids.** -/
theorem resolve (hr : ρ.Renames h h') (cs : List Candidate) (args : List TypeRef) :
    h'.resolve (cs.map ρ.candidate) (args.map ρ.type) = ρ.resolution (h.resolve cs args) := by
  have hmap := Hierarchy.resolve_map (g := ρ.constructorRef) (hr.ranks? args) (fun _ => rfl) cs
  rw [hmap]
  cases h.resolve cs args <;> rfl

/-! ## Sites -/

theorem mapError_lookup {α β : Type} (f : α → β) (x : Except LookupError α) :
    (relabel ρ.lookupError f x).mapError .lookup = relabel ρ.checkError f (x.mapError .lookup) :=
  relabel_mapError fun _ => rfl

theorem targetOf (hr : ρ.Renames h h') (s : Site) :
    h'.targetOf (ρ.site s) = relabel ρ.checkError ρ.ofClass (h.targetOf s) := by
  unfold Hierarchy.targetOf
  rw [show (ρ.site s).context = ρ.ofClass s.context from rfl, hr.getClass,
    mapError_lookup]
  refine relabel_bind fun context => ?_
  rw [show (ρ.site s).subject = ρ.subject s.subject from rfl]
  cases s.subject with
  | base id =>
    have hany : ((ρ.classDecl context).bases.any fun b => b.base = ρ.ofClass id) =
        context.bases.any fun b => b.base = id := by
      simp only [classDecl, List.any_map, Function.comp_def, base, ρ.ofClass.apply_eq_iff_eq]
    simp only [subject, hany]
    rw [show TypeRef.ofClass (ρ.ofClass id) = ρ.type (.ofClass id) from rfl, hr.typeName]
    split
    · rfl
    · rfl
  | member id =>
    simp only [subject]
    rw [hr.getMember, mapError_lookup]
    refine relabel_bind fun m => ?_
    have howner : (ρ.memberDecl m).owner ≠ ρ.ofClass s.context ↔ m.owner ≠ s.context :=
      ρ.ofClass.apply_eq_iff_eq.not
    rw [if_congr howner rfl rfl, show (ρ.memberDecl m).type = ρ.type m.type from rfl, class?_type]
    split
    · rfl
    · cases m.type.class? <;> rfl

theorem gather (hr : ρ.Renames h h') (s : Site) :
    h'.gather (ρ.site s) = relabel ρ.checkError ρ.gathered (h.gather s) := by
  unfold Hierarchy.gather
  rw [hr.targetOf]
  refine relabel_bind fun target => ?_
  rw [hr.candidatesOf, mapError_lookup]
  refine relabel_bind fun cs => ?_
  have hany : ((cs.map ρ.candidate).any fun c => c.isDefault) = cs.any fun c => c.isDefault := by
    simp only [List.any_map, Function.comp_def, isDefault_candidate]
  rw [isImplicit_site, hany]
  split
  · rw [map_constructor]
    rfl
  · rfl

theorem isAccessible (hr : ρ.Renames h h') (access : Access) (declaring calling : ClassId) :
    h'.isAccessible access (ρ.ofClass declaring) (ρ.ofClass calling) =
      h.isAccessible access declaring calling := by
  cases access with
  | publicAccess => rfl
  | protectedAccess =>
    simp only [Hierarchy.isAccessible, ρ.ofClass.apply_eq_iff_eq, hr.isDerivedFrom]
  | privateAccess => simp only [Hierarchy.isAccessible, ρ.ofClass.apply_eq_iff_eq]

theorem accessFinding (hr : ρ.Renames h h') (s : Site) (c : Candidate) :
    h'.accessFinding (ρ.site s) (ρ.candidate c) = (h.accessFinding s c).map ρ.finding := by
  unfold Hierarchy.accessFinding
  rw [show h'.isAccessible (ρ.candidate c).access (ρ.candidate c).declaring (ρ.site s).context =
    h.isAccessible c.access c.declaring s.context from hr.isAccessible ..]
  split
  · rfl
  · rfl

/-- **A site gets the same verdict under new ids.** -/
theorem checkSite (hr : ρ.Renames h h') (s : Site) :
    h'.checkSite (ρ.site s) = relabel ρ.checkError (Option.map ρ.finding) (h.checkSite s) := by
  unfold Hierarchy.checkSite
  rw [hr.gather]
  refine relabel_bind fun g => ?_
  cases g with
  | missingDefault target considered => rfl
  | candidates target cs =>
    simp only [gathered]
    rw [arguments_site, hr.resolve]
    cases h.resolve cs s.arguments with
    | resolved winner => exact congrArg Except.ok (hr.accessFinding s winner.candidate)
    | ambiguous tied => rfl
    | noMatch =>
      simp only [resolution, map_constructor]
      rfl

/-! ## Definitions -/

theorem subjectOf? (hr : ρ.Renames h h') (owner : ClassId) (name : String) :
    h'.subjectOf? (ρ.ofClass owner) name = (h.subjectOf? owner name).map ρ.subject := by
  unfold Hierarchy.subjectOf?
  rw [hr.memberByName, hr.resolveBase]
  cases h.memberByName owner name with
  | ok id => rfl
  | error e => cases h.resolveBase owner name <;> rfl

/-- An entry with its subject, under new ids. -/
def assignment (ρ : Renaming) : Subject × Entry → Subject × Entry := Prod.map ρ.subject ρ.entry

theorem assignEntries (hr : ρ.Renames h h') (c : ClassDecl) (owner : ClassId)
    (earlier : List (Subject × Entry)) (es : List Entry) :
    h'.assignEntries (ρ.classDecl c) (ρ.ofClass owner) (earlier.map (assignment ρ))
      (es.map ρ.entry) =
        relabel ρ.checkError (List.map (assignment ρ)) (h.assignEntries c owner earlier es) := by
  induction es generalizing earlier with
  | nil => rfl
  | cons e es ih =>
    rw [List.map_cons, Hierarchy.assignEntries, Hierarchy.assignEntries,
      show (ρ.entry e).name = e.name from rfl, hr.subjectOf?]
    cases h.subjectOf? owner e.name with
    | none => rfl
    | some su =>
      have hany : ((earlier.map (assignment ρ)).any fun p => p.1 = ρ.subject su) =
          earlier.any fun p => p.1 = su := by
        simp only [List.any_map, Function.comp_def, assignment, Prod.map_fst,
          ρ.subject_injective.eq_iff]
      simp only [Option.map_some, hany]
      split
      · rfl
      · rw [← ih, List.map_append]
        rfl

theorem lookup_map (assigned : List (Subject × Entry)) (su : Subject) :
    (assigned.map (assignment ρ)).lookup (ρ.subject su) = (assigned.lookup su).map ρ.entry := by
  induction assigned with
  | nil => rfl
  | cons p assigned ih =>
    have hkey : (ρ.subject su == ρ.subject p.1) = (su == p.1) := by
      rw [Bool.eq_iff_iff, beq_iff_eq, beq_iff_eq, ρ.subject_injective.eq_iff]
    rw [List.map_cons, assignment, Prod.map, List.lookup_cons, List.lookup_cons, hkey]
    split
    · rfl
    · exact ih

theorem siteOf (owner : ClassId) (point : Span) (assigned : List (Subject × Entry))
    (su : Subject) :
    Hierarchy.siteOf (ρ.ofClass owner) point (assigned.map (assignment ρ)) (ρ.subject su) =
      ρ.site (Hierarchy.siteOf owner point assigned su) := by
  unfold Hierarchy.siteOf
  rw [lookup_map]
  cases assigned.lookup su <;> rfl

theorem constructsMember (assigned : List (Subject × Entry)) (m : MemberDecl) :
    Hierarchy.constructsMember (assigned.map (assignment ρ)) (ρ.memberDecl m) =
      Hierarchy.constructsMember assigned m := by
  unfold Hierarchy.constructsMember
  rw [show Subject.member (ρ.memberDecl m).id = ρ.subject (.member m.id) from rfl, lookup_map,
    show (ρ.memberDecl m).type = ρ.type m.type from rfl, class?_type, Option.isSome_map,
    Option.isSome_map]
  rfl

/-- **A definition has the same sites under new ids, in the same order.** -/
theorem sitesOf (hr : ρ.Renames h h') (d : Definition) :
    h'.sitesOf (ρ.definition d) = relabel ρ.checkError (List.map ρ.site) (h.sitesOf d) := by
  unfold Hierarchy.sitesOf
  rw [show (ρ.definition d).owner = ρ.ofClass d.owner from rfl, hr.getClass,
    mapError_lookup]
  refine relabel_bind fun c => ?_
  have hassign := hr.assignEntries c d.owner [] d.entries
  rw [List.map_nil] at hassign
  rw [show (ρ.definition d).entries = d.entries.map ρ.entry from rfl, hassign]
  refine relabel_bind fun assigned => congrArg Except.ok ?_
  -- what is constructed is the same, and each part of it has its site
  have hmembers : ((h'.membersOf (ρ.classDecl c)).filter
      (Hierarchy.constructsMember (assigned.map (assignment ρ)))).map
        (fun m => Subject.member m.id) =
        (((h.membersOf c).filter (Hierarchy.constructsMember assigned)).map fun m =>
          Subject.member m.id).map ρ.subject := by
    rw [hr.membersOf, List.filter_map, List.map_map, List.map_map]
    simp only [Function.comp_def, constructsMember]
    rfl
  have hbases : (ρ.classDecl c).bases.map (fun b => Subject.base b.base) =
      (c.bases.map fun b => Subject.base b.base).map ρ.subject := by
    rw [classDecl, List.map_map, List.map_map]
    rfl
  rw [hmembers, hbases, ← List.map_append, List.map_map, List.map_map]
  exact List.map_congr_left fun su _ => siteOf _ _ _ su

theorem implicitSitesOf (hr : ρ.Renames h h') (id : ClassId) :
    h'.implicitSitesOf (ρ.ofClass id) =
      relabel ρ.checkError (List.map ρ.site) (h.implicitSitesOf id) := by
  unfold Hierarchy.implicitSitesOf
  rw [hr.getClass, mapError_lookup]
  refine relabel_bind fun c => ?_
  have hdefault : (ρ.classDecl c).hasImplicitDefault = c.hasImplicitDefault := List.isEmpty_map
  rw [hdefault]
  split
  · exact hr.sitesOf (.implicitDefault id c.implicitDefaultPoint)
  · rfl

end Renames

end Renaming

end ConstructorCheck
