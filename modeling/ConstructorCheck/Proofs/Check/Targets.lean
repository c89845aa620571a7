import ConstructorCheck.Proofs.Check.Batch
import ConstructorCheck.Proofs.Check.Definition
import ConstructorCheck.Proofs.Check.Verdict
import ConstructorCheck.Proofs.Hierarchy.ByName
/-!
# The targets of the sites of a definition

The sites of a definition are found by walking through the bases and members of its class; a site
that is checked is looked up in the hierarchy once more. The two agree: all sites of a definition
have targets, so a batch of definitions can only fail where their sites are found.

* `targetOf_of_mem_sitesOf` — the sites of a definition have targets
* `checkSites_of_targets` — checking sites that have targets does not fail
* `checkDefinitions_congr`, `checkImplicitDefaults_congr` — so it does not matter how the work is
  split among workers
* `check_fails_iff` — when a batch fails, and with which error
-/

namespace ConstructorCheck.Hierarchy

variable {h : Hierarchy} {c : ClassDecl} {owner id : ClassId} {d : Definition}
  {sites : List Site} {s : Site}

/-! ## Sites that have targets -/

theorem targetOf_eq_ok_of_base (hc : h.class? s.context = some c) (hs : s.subject = .base id)
    (hid : ∃ b ∈ c.bases, b.base = id) : h.targetOf s = .ok id := by
  refine bind_eq_ok_iff.2 ⟨c, mapError_eq_ok_iff.2 (getClass_eq_ok_iff.2 hc), ?_⟩
  rw [hs]
  exact if_pos (by simpa using hid)

theorem targetOf_eq_ok_of_member {m : MemberDecl} (hc : h.class? s.context = some c)
    (hs : s.subject = .member m.id) (hm : h.member? m.id = some m) (howner : m.owner = s.context)
    (htype : m.type.class? = some id) : h.targetOf s = .ok id := by
  refine bind_eq_ok_iff.2 ⟨c, mapError_eq_ok_iff.2 (getClass_eq_ok_iff.2 hc), ?_⟩
  rw [hs]
  refine bind_eq_ok_iff.2 ⟨m, mapError_eq_ok_iff.2 (getMember_eq_ok_iff.2 hm), ?_⟩
  rw [if_neg (not_not_intro howner), htype]
  rfl

/-- **The sites of a definition have targets.** -/
theorem targetOf_of_mem_sitesOf (hw : h.WellFormed) (hok : h.sitesOf d = .ok sites)
    (hs : s ∈ sites) : ∃ t, h.targetOf s = .ok t := by
  obtain ⟨c, assigned, hc, -, rfl⟩ := sitesOf_eq_ok_iff.1 hok
  obtain ⟨su, hsu, rfl⟩ := List.mem_map.1 hs
  have hcontext : h.class? (siteOf d.owner d.implicitPoint assigned su).context = some c := by
    rwa [context_siteOf]
  rcases List.mem_append.1 hsu with hsu | hsu
  · obtain ⟨b, hb, rfl⟩ := List.mem_map.1 hsu
    exact ⟨b.base, targetOf_eq_ok_of_base hcontext (subject_siteOf ..) ⟨b, hb, rfl⟩⟩
  · obtain ⟨m, hm, rfl⟩ := List.mem_map.1 hsu
    obtain ⟨hm, hkeep⟩ := List.mem_filter.1 hm
    obtain ⟨hm, howner⟩ := (mem_membersOf_iff hw hc).1 hm
    -- only members of class type have sites
    obtain ⟨t, ht⟩ := Option.isSome_iff_exists.1 (Bool.and_eq_true_iff.1 hkeep).1
    refine ⟨t, targetOf_eq_ok_of_member hcontext (subject_siteOf ..) hm ?_ ht⟩
    rwa [context_siteOf]

theorem targetOf_of_mem_implicitSitesOf (hw : h.WellFormed)
    (hok : h.implicitSitesOf owner = .ok sites) (hs : s ∈ sites) : ∃ t, h.targetOf s = .ok t := by
  obtain ⟨c, -, hok⟩ := bind_eq_ok_iff.1 hok
  split at hok
  · exact targetOf_of_mem_sitesOf hw hok hs
  · cases hok

/-- **Checking sites that have targets does not fail.** -/
theorem checkSites_of_targets [ParallelMap] (hw : h.WellFormed) (o : Options)
    (hsites : ∀ s ∈ sites, ∃ t, h.targetOf s = .ok t) :
    h.checkSites o sites = .ok (Finding.sort (h.findingsAt sites)) := by
  refine checkSites_eq_sort fun s hs => ?_
  obtain ⟨t, ht⟩ := hsites s hs
  cases hv : h.checkSite s with
  | ok v => exact ⟨v, rfl⟩
  | error e =>
    rw [checkSite_eq_error_iff hw, ht] at hv
    cases hv

/-! ## Batches that fail -/

/-- The sites of a batch have targets when those of each part have. -/
theorem targetOf_of_mem_flatten {α : Type} {f : α → Except CheckError (List Site)}
    (hf : ∀ {a sites}, f a = .ok sites → ∀ s ∈ sites, ∃ t, h.targetOf s = .ok t) {l : List α}
    {batches : List (List Site)} (hbatches : l.mapM f = .ok batches) :
    ∀ s ∈ batches.flatten, ∃ t, h.targetOf s = .ok t := by
  intro s hs
  obtain ⟨sites, hsites, hs⟩ := List.mem_flatten.1 hs
  obtain ⟨a, -, ha⟩ := exists_of_mem_mapM hbatches hsites
  exact hf ha s hs

/-- How a batch of such parts is checked makes no difference, not even to its error. -/
theorem batch_congr {α : Type} (hw : h.WellFormed) (m m' : ParallelMap) (o o' : Options)
    {f : α → Except CheckError (List Site)}
    (hf : ∀ {a sites}, f a = .ok sites → ∀ s ∈ sites, ∃ t, h.targetOf s = .ok t) (l : List α) :
    (l.mapM f >>= fun batches => @checkSites m h o batches.flatten) =
      l.mapM f >>= fun batches => @checkSites m' h o' batches.flatten := by
  cases hbatches : l.mapM f with
  | error e => rfl
  | ok batches =>
    have htargets := targetOf_of_mem_flatten hf hbatches
    exact (@checkSites_of_targets _ _ m hw o htargets).trans
      (@checkSites_of_targets _ _ m' hw o' htargets).symm

/-- **Checking definitions does not depend on how their sites are split among workers.** -/
theorem checkDefinitions_congr (hw : h.WellFormed) (m m' : ParallelMap) (o o' : Options)
    (ds : List Definition) : @checkDefinitions m h o ds = @checkDefinitions m' h o' ds :=
  batch_congr hw m m' o o' (fun hok _ hs => targetOf_of_mem_sitesOf hw hok hs) ds

theorem checkImplicitDefaults_congr (hw : h.WellFormed) (m m' : ParallelMap) (o o' : Options)
    (ids : List ClassId) :
    @checkImplicitDefaults m h o ids = @checkImplicitDefaults m' h o' ids :=
  batch_congr hw m m' o o' (fun hok _ hs => targetOf_of_mem_implicitSitesOf hw hok hs) ids

/-- A batch fails when the sites of one of its parts cannot be found, and in no other way. -/
theorem batch_eq_error_iff [ParallelMap] {α : Type} (hw : h.WellFormed) (o : Options)
    {f : α → Except CheckError (List Site)}
    (hf : ∀ {a sites}, f a = .ok sites → ∀ s ∈ sites, ∃ t, h.targetOf s = .ok t) {l : List α}
    {e : CheckError} :
    (l.mapM f >>= fun batches => h.checkSites o batches.flatten) = .error e ↔
      ∃ before a after, l = before ++ a :: after ∧ (∀ x ∈ before, ∃ sites, f x = .ok sites) ∧
        f a = .error e := by
  rw [bind_eq_error_iff, mapM_eq_error_iff, or_iff_left]
  rintro ⟨batches, hbatches, herr⟩
  rw [checkSites_of_targets hw o (targetOf_of_mem_flatten hf hbatches)] at herr
  cases herr

theorem exists_sitesOf_implicitDefault (hc : h.class? owner = some c) (point : Span) :
    ∃ sites, h.sitesOf (.implicitDefault owner point) = .ok sites :=
  ⟨_, bind_eq_ok_iff.2 ⟨c, mapError_eq_ok_iff.2 (getClass_eq_ok_iff.2 hc), rfl⟩⟩

/-- A class has an implicit default constructor when no constructor is its own. -/
theorem hasImplicitDefault_iff (hw : h.WellFormed) (hc : h.class? id = some c) :
    c.hasImplicitDefault = true ↔ ∀ k ∈ h.constructors, k.owner ≠ id := by
  have hlist : (h.class? id).map (·.constructors) = some c.constructors := by rw [hc]; rfl
  rw [ClassDecl.hasImplicitDefault, List.isEmpty_iff, List.eq_nil_iff_forall_not_mem]
  simp only [hw.owned_constructors.mem_iff hlist]
  constructor
  · intro hno k hk howner
    obtain ⟨i, hi⟩ := List.mem_iff_getElem?.1 hk
    exact hno ⟨i⟩ ⟨k, hi, howner⟩
  · rintro hno i ⟨k, hk, howner⟩
    exact hno k (List.mem_of_getElem? hk) howner

/-- Why a class cannot be default-constructed by an implicitly defined constructor. -/
inductive LacksImplicitDefault (h : Hierarchy) (id : ClassId) : CheckError → Prop where
  | unknown (hc : h.class? id = none) : LacksImplicitDefault h id (.lookup (.unknownClass id))
  | declares {c : ClassDecl} (hc : h.class? id = some c) (hk : ∃ k ∈ h.constructors, k.owner = id) :
    LacksImplicitDefault h id (.hasDeclaredConstructors c.name)

theorem implicitSitesOf_of_unknown (hc : h.class? id = none) :
    h.implicitSitesOf id = .error (.lookup (.unknownClass id)) := by
  simp only [implicitSitesOf, getClass, hc]
  rfl

theorem implicitSitesOf_of_declares (hc : h.class? id = some c)
    (hdeclares : ¬ c.hasImplicitDefault = true) :
    h.implicitSitesOf id = .error (.hasDeclaredConstructors c.name) := by
  refine bind_eq_error_iff.2 (Or.inr ⟨c, mapError_eq_ok_iff.2 (getClass_eq_ok_iff.2 hc), ?_⟩)
  rw [if_neg hdeclares]
  rfl

/-- The sites of the implicit constructor are always found. -/
theorem exists_implicitSitesOf_of_default (hc : h.class? id = some c)
    (hdefault : c.hasImplicitDefault = true) : ∃ sites, h.implicitSitesOf id = .ok sites := by
  obtain ⟨sites, hsites⟩ := exists_sitesOf_implicitDefault hc c.implicitDefaultPoint
  refine ⟨sites, bind_eq_ok_iff.2 ⟨c, mapError_eq_ok_iff.2 (getClass_eq_ok_iff.2 hc), ?_⟩⟩
  rw [if_pos hdefault, hsites]

theorem implicitSitesOf_eq_error_iff (hw : h.WellFormed) {e : CheckError} :
    h.implicitSitesOf id = .error e ↔ h.LacksImplicitDefault id e := by
  constructor
  · intro herr
    cases hc : h.class? id with
    | none =>
      rw [implicitSitesOf_of_unknown hc] at herr
      cases herr
      exact .unknown hc
    | some c =>
      by_cases hdefault : c.hasImplicitDefault = true
      · obtain ⟨sites, hsites⟩ := exists_implicitSitesOf_of_default hc hdefault
        rw [hsites] at herr
        cases herr
      · rw [implicitSitesOf_of_declares hc hdefault] at herr
        cases herr
        rw [hasImplicitDefault_iff hw hc] at hdefault
        push Not at hdefault
        exact .declares hc hdefault
  · intro hlacks
    cases hlacks with
    | unknown hc => exact implicitSitesOf_of_unknown hc
    | declares hc hk =>
      obtain ⟨k, hk, howner⟩ := hk
      exact implicitSitesOf_of_declares hc fun hdefault =>
        (hasImplicitDefault_iff hw hc).1 hdefault k hk howner

theorem exists_implicitSitesOf_iff (hw : h.WellFormed) :
    (∃ sites, h.implicitSitesOf id = .ok sites) ↔
      (∃ c, h.class? id = some c) ∧ ∀ k ∈ h.constructors, k.owner ≠ id := by
  constructor
  · rintro ⟨sites, hsites⟩
    obtain ⟨c, hc, hsites⟩ := bind_eq_ok_iff.1 hsites
    rw [mapError_eq_ok_iff, getClass_eq_ok_iff] at hc
    split at hsites
    · next hdefault => exact ⟨⟨c, hc⟩, (hasImplicitDefault_iff hw hc).1 hdefault⟩
    · cases hsites
  · rintro ⟨⟨c, hc⟩, hno⟩
    exact exists_implicitSitesOf_of_default hc ((hasImplicitDefault_iff hw hc).2 hno)

/--
**When a batch fails.** The sites that are found for a definition, or for an implicit default
constructor, have targets and can be checked. So a batch of definitions fails where the sites of a
definition cannot be found, and a batch of default-constructed classes where a class is unknown or
declares a constructor; each fails with the error of the first such definition or class.
-/
theorem check_fails_iff [ParallelMap] (hr : h.Reachable) (o : Options) :
    (∀ d sites, h.sitesOf d = .ok sites →
      (∀ s ∈ sites, ∃ t, h.targetOf s = .ok t) ∧ ∃ xs, h.checkSites o sites = .ok xs) ∧
    (∀ id sites, h.implicitSitesOf id = .ok sites →
      (∀ s ∈ sites, ∃ t, h.targetOf s = .ok t) ∧ ∃ xs, h.checkSites o sites = .ok xs) ∧
    (∀ ds e, h.checkDefinitions o ds = .error e ↔
      ∃ before d after, ds = before ++ d :: after ∧
        (∀ b ∈ before, ∃ sites, h.sitesOf b = .ok sites) ∧ h.sitesOf d = .error e) ∧
    ∀ ids e, h.checkImplicitDefaults o ids = .error e ↔
      ∃ before id after, ids = before ++ id :: after ∧
        (∀ b ∈ before, (∃ c, h.class? b = some c) ∧ ∀ k ∈ h.constructors, k.owner ≠ b) ∧
        h.LacksImplicitDefault id e := by
  have hw := hr.wellFormed
  refine ⟨fun d sites hok => ?_, fun id sites hok => ?_, fun ds e => ?_, fun ids e => ?_⟩
  · have htargets : ∀ s ∈ sites, ∃ t, h.targetOf s = .ok t := fun s hs =>
      targetOf_of_mem_sitesOf hw hok hs
    exact ⟨htargets, _, checkSites_of_targets hw o htargets⟩
  · have htargets : ∀ s ∈ sites, ∃ t, h.targetOf s = .ok t := fun s hs =>
      targetOf_of_mem_implicitSitesOf hw hok hs
    exact ⟨htargets, _, checkSites_of_targets hw o htargets⟩
  · exact batch_eq_error_iff hw o fun hok s hs => targetOf_of_mem_sitesOf hw hok hs
  · simp only [← exists_implicitSitesOf_iff hw, ← implicitSitesOf_eq_error_iff hw]
    exact batch_eq_error_iff hw o fun hok s hs => targetOf_of_mem_implicitSitesOf hw hok hs

/-- Of two classes, one declares a constructor; a third one is not declared. -/
theorem check_fails_iff_two_classes :
    let h := Hierarchy.empty.run [.newClass "Plain" .unknown, .newClass "Whole" .unknown,
      .member ⟨1⟩ "part" (.ofClass ⟨0⟩) .privateAccess none .unknown,
      .constructor ⟨1⟩ [] .publicAccess .unknown]
    h.Reachable ∧
      h.checkImplicitDefaults .default [⟨0⟩, ⟨1⟩, ⟨7⟩] =
        .error (.hasDeclaredConstructors "Whole") ∧
      h.checkDefinitions .default [⟨⟨1⟩, none, .unknown, [⟨"part", [], .unknown⟩]⟩,
        ⟨⟨1⟩, none, .unknown, [⟨"parts", [], .unknown⟩]⟩] =
        .error (.unknownInitializer "Whole" "parts") := by
  intro h
  have hr : h.Reachable := ⟨_, rfl⟩
  have hplain : h.class? ⟨0⟩ = some ⟨⟨0⟩, "Plain", .unknown, .unknown, [], [], []⟩ := rfl
  have hwhole : h.class? ⟨1⟩ = some ⟨⟨1⟩, "Whole", .unknown, .unknown, [], [⟨0⟩], [⟨0⟩]⟩ := rfl
  obtain ⟨-, -, hdefinitions, hdefaults⟩ := check_fails_iff hr .default
  refine ⟨hr, (hdefaults _ _).2 ⟨[⟨0⟩], ⟨1⟩, [⟨7⟩], rfl, fun b hb => ?_, ?_⟩,
    (hdefinitions _ _).2 ⟨[_], _, [], rfl, fun b hb => ?_, rfl⟩⟩
  · rw [List.mem_singleton.1 hb]
    exact ⟨⟨_, hplain⟩, by decide⟩
  · exact .declares hwhole ⟨⟨⟨0⟩, ⟨1⟩, [], .publicAccess, .unknown⟩, List.mem_singleton.2 rfl, rfl⟩
  · rw [List.mem_singleton.1 hb]
    exact ⟨_, rfl⟩

end ConstructorCheck.Hierarchy
