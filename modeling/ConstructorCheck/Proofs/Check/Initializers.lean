import Mathlib
import ConstructorCheck.Proofs.Check.Targets
/-!
# Initializer lists

What a definition makes of its initializer list. An entry is for the member with its name, or for
the direct base when no member has the name. The entries have to be for something, and no two of
them may have the same name; their order is of no consequence, as each site stands where the class
declares what is constructed there.

* `subjectOf?_eq_some_iff` — what a name in an entry stands for
* `exists_assignEntries_iff_assignable` — the lists of entries that are accepted
* `assignEntries_eq_error_iff` — the entry at which a list is refused
* `sitesOf_spec` — when a definition is accepted, with which sites, and why it is refused
-/

namespace ConstructorCheck.Hierarchy

variable {h : Hierarchy} {c : ClassDecl} {owner : ClassId} {d : Definition} {sites : List Site}
  {su : Subject} {name : String}

/-! ## What a name stands for -/

theorem subjectOf?_of_member {id : MemberId} (hm : h.memberByName owner name = .ok id) :
    h.subjectOf? owner name = some (.member id) := by
  rw [subjectOf?, hm]

/-- A name that no member has stands for a base. -/
theorem subjectOf?_of_no_member (hw : h.WellFormed) (hc : h.class? owner = some c)
    (hno : ∀ m ∈ h.membersOf c, m.name ≠ name) :
    h.subjectOf? owner name = (h.resolveBase owner name).toOption.map .base := by
  rw [subjectOf?]
  cases hm : h.memberByName owner name with
  | ok id =>
    obtain ⟨m, hm, -, hname⟩ := (memberByName_eq_ok_iff hw hc).1 hm
    exact absurd hname (hno m hm)
  | error e => cases h.resolveBase owner name <;> rfl

theorem subjectOf?_eq_member_iff (hw : h.WellFormed) (hc : h.class? owner = some c)
    {id : MemberId} : h.subjectOf? owner name = some (.member id) ↔
      ∃ m ∈ h.membersOf c, m.id = id ∧ m.name = name := by
  rw [← memberByName_eq_ok_iff hw hc]
  refine ⟨fun hsu => ?_, subjectOf?_of_member⟩
  unfold subjectOf? at hsu
  split at hsu
  · next hm =>
    cases hsu
    exact hm
  · split at hsu <;> cases hsu

/-- A member hides a base of its name. -/
theorem subjectOf?_eq_base_iff (hw : h.WellFormed) (hc : h.class? owner = some c) {id : ClassId} :
    h.subjectOf? owner name = some (.base id) ↔ (∀ m ∈ h.membersOf c, m.name ≠ name) ∧
      (∃ b ∈ c.bases, b.base = id) ∧ ∃ e, h.class? id = some e ∧ e.name = name := by
  rw [← resolveBase_eq_ok_iff hw hc]
  by_cases hno : ∀ m ∈ h.membersOf c, m.name ≠ name
  · rw [subjectOf?_of_no_member hw hc hno, and_iff_right hno]
    simp [toOption_eq_some_iff]
  · refine iff_of_false (fun hsu => ?_) fun hall => hno hall.1
    push Not at hno
    obtain ⟨m, hm, hname⟩ := hno
    rw [(subjectOf?_eq_member_iff hw hc).2 ⟨m, hm, rfl, hname⟩] at hsu
    cases hsu

/-- Two names that stand for the same subject are one. -/
theorem name_eq_of_subjectOf? (hw : h.WellFormed) (hc : h.class? owner = some c) {name' : String}
    (hsu : h.subjectOf? owner name = some su) (hsu' : h.subjectOf? owner name' = some su) :
    name = name' := by
  cases su with
  | base id =>
    obtain ⟨-, -, e, he, hname⟩ := (subjectOf?_eq_base_iff hw hc).1 hsu
    obtain ⟨-, -, e', he', hname'⟩ := (subjectOf?_eq_base_iff hw hc).1 hsu'
    rw [he] at he'
    cases he'
    exact hname.symm.trans hname'
  | member id =>
    obtain ⟨m, hm, rfl, hname⟩ := (subjectOf?_eq_member_iff hw hc).1 hsu
    obtain ⟨m', hm', hid, hname'⟩ := (subjectOf?_eq_member_iff hw hc).1 hsu'
    have hget := ((mem_membersOf_iff hw hc).1 hm).1
    rw [← hid, ((mem_membersOf_iff hw hc).1 hm').1] at hget
    cases hget
    exact hname.symm.trans hname'

/--
In a constructor of the class `c` a name stands for a subject: for the member with the name, or for
the direct base when no member has it.
-/
inductive Names (h : Hierarchy) (c : ClassDecl) (name : String) : Subject → Prop where
  | member {m : MemberDecl} (hm : m ∈ h.membersOf c) (hname : m.name = name) :
    Names h c name (.member m.id)
  | base {b : BaseSpecifier} {e : ClassDecl} (hb : b ∈ c.bases) (he : h.class? b.base = some e)
      (hname : e.name = name) (hhidden : ∀ m ∈ h.membersOf c, m.name ≠ name) :
    Names h c name (.base b.base)

/-- **What a name in an entry stands for.** -/
theorem subjectOf?_eq_some_iff (hw : h.WellFormed) (hc : h.class? owner = some c) :
    h.subjectOf? owner name = some su ↔ h.Names c name su := by
  constructor
  · intro hsu
    cases su with
    | member id =>
      obtain ⟨m, hm, rfl, hname⟩ := (subjectOf?_eq_member_iff hw hc).1 hsu
      exact .member hm hname
    | base id =>
      obtain ⟨hhidden, ⟨b, hb, rfl⟩, e, he, hname⟩ := (subjectOf?_eq_base_iff hw hc).1 hsu
      exact .base hb he hname hhidden
  · intro hsu
    cases hsu with
    | member hm hname => exact (subjectOf?_eq_member_iff hw hc).2 ⟨_, hm, rfl, hname⟩
    | base hb he hname hhidden =>
      exact (subjectOf?_eq_base_iff hw hc).2 ⟨hhidden, ⟨_, hb, rfl⟩, _, he, hname⟩

/-- The name of a member or of a direct base. -/
def Initializable (h : Hierarchy) (c : ClassDecl) (name : String) : Prop :=
  (∃ m ∈ h.membersOf c, m.name = name) ∨
    ∃ b ∈ c.bases, ∃ e, h.class? b.base = some e ∧ e.name = name

theorem initializable_iff_exists_names : h.Initializable c name ↔ ∃ su, h.Names c name su := by
  constructor
  · intro hname
    by_cases hmember : ∃ m ∈ h.membersOf c, m.name = name
    · obtain ⟨m, hm, hname⟩ := hmember
      exact ⟨_, .member hm hname⟩
    · obtain ⟨b, hb, e, he, hname⟩ := hname.resolve_left hmember
      exact ⟨_, .base hb he hname fun m hm heq => hmember ⟨m, hm, heq⟩⟩
  · rintro ⟨su, hsu⟩
    cases hsu with
    | member hm hname => exact .inl ⟨_, hm, hname⟩
    | base hb he hname => exact .inr ⟨_, hb, _, he, hname⟩

/-! ## What is constructed -/

/-- Nothing is constructed twice. -/
theorem constructed_nodup (hw : h.WellFormed) (hc : h.class? owner = some c)
    (assigned : List (Subject × Entry)) : (h.constructed c assigned).Nodup := by
  have hbases : (c.bases.map fun b => Subject.base b.base).Nodup := by
    have hmap := (hw.bases_nodup hc).map (f := Subject.base) fun _ _ heq => Subject.base.inj heq
    rwa [List.map_map] at hmap
  have hlist : (h.class? owner).map (·.members) = some c.members := by rw [hc]; rfl
  have hids : ((h.membersOf c).map (·.id)).Nodup := by
    have hids := hw.owned_members.map_id_filterMap hlist
    exact hids ▸ hw.owned_members.list_nodup hlist
  have hmembers : (((h.membersOf c).filter (constructsMember assigned)).map
      fun m => Subject.member m.id).Nodup := by
    have hsub := hids.sublist ((List.filter_sublist (p := constructsMember assigned)).map _)
    have hmap := hsub.map (f := Subject.member) fun _ _ heq => Subject.member.inj heq
    rwa [List.map_map] at hmap
  refine List.nodup_append.2 ⟨hbases, hmembers, fun x hx y hy heq => ?_⟩
  obtain ⟨b, -, rfl⟩ := List.mem_map.1 hx
  obtain ⟨m, -, rfl⟩ := List.mem_map.1 hy
  cases heq

/--
What a definition constructs, in order, by the names of its entries: the direct bases, and then the
members of class type that have an entry or are default-initialized.
-/
def subjectsOf (h : Hierarchy) (c : ClassDecl) (d : Definition) : List Subject :=
  c.bases.map (fun b => .base b.base) ++
    ((h.membersOf c).filter fun m => m.type.class?.isSome &&
      ((d.entries.any fun e => e.name = m.name) || m.defaultInit)).map fun m => .member m.id

theorem constructed_eq_subjectsOf (hw : h.WellFormed) (hc : h.class? d.owner = some c)
    {assigned : List (Subject × Entry)}
    (hok : h.assignEntries c d.owner [] d.entries = .ok assigned) :
    h.constructed c assigned = h.subjectsOf c d := by
  have hfilter : (h.membersOf c).filter (constructsMember assigned) =
      (h.membersOf c).filter fun m => m.type.class?.isSome &&
        ((d.entries.any fun e => e.name = m.name) || m.defaultInit) := by
    refine List.filter_congr fun m hm => ?_
    -- an entry with the name of the member is for the member
    have hany : (assigned.lookup (.member m.id)).isSome =
        d.entries.any fun e => e.name = m.name := by
      rw [lookup_assigned hok, List.isSome_find?]
      refine List.any_congr rfl fun e => decide_eq_decide.2 ⟨fun hsu => ?_, fun hname => ?_⟩
      · exact name_eq_of_subjectOf? hw hc hsu ((subjectOf?_eq_member_iff hw hc).2 ⟨m, hm, rfl, rfl⟩)
      · exact (subjectOf?_eq_member_iff hw hc).2 ⟨m, hm, rfl, hname.symm⟩
    rw [constructsMember, hany]
  rw [constructed, subjectsOf, hfilter]

/-- A subject that an entry names is constructed, unless it is a scalar member. -/
theorem Names.mem_subjectsOf {e : Entry} (hsu : h.Names c e.name su) (he : e ∈ d.entries)
    (hscalar : ∀ m ∈ h.membersOf c, m.name = e.name → m.type.class?.isSome = true) :
    su ∈ h.subjectsOf c d := by
  cases hsu with
  | base hb => exact List.mem_append_left _ (List.mem_map.2 ⟨_, hb, rfl⟩)
  | @member m hm hname =>
    refine List.mem_append_right _ (List.mem_map.2 ⟨m, List.mem_filter.2 ⟨hm, ?_⟩, rfl⟩)
    have hentry : (d.entries.any fun e => e.name = m.name) = true :=
      List.any_eq_true.2 ⟨e, he, decide_eq_true hname.symm⟩
    rw [hscalar m hm hname, hentry, Bool.true_or, Bool.true_and]

/-! ## Entries told apart by their names -/

/-- The entries are for something, and no two have the same name. -/
structure Assignable (h : Hierarchy) (c : ClassDecl) (es : List Entry) : Prop where
  initializable : ∀ e ∈ es, h.Initializable c e.name
  nodup : (es.map (·.name)).Nodup

theorem exists_assignEntries_iff_assignable (hw : h.WellFormed) (hc : h.class? owner = some c)
    {es : List Entry} :
    (∃ assigned, h.assignEntries c owner [] es = .ok assigned) ↔ h.Assignable c es := by
  have hknown : ∀ e : Entry, (∃ su, h.subjectOf? owner e.name = some su ∧
      ∀ p ∈ ([] : List (Subject × Entry)), p.1 ≠ su) ↔ h.Initializable c e.name := by
    intro e
    simp [initializable_iff_exists_names, subjectOf?_eq_some_iff hw hc]
  rw [exists_assignEntries_iff]
  simp only [hknown]
  have hnodup : (∀ e ∈ es, h.Initializable c e.name) →
      ((es.map fun e => h.subjectOf? owner e.name).Nodup ↔ (es.map (·.name)).Nodup) := by
    intro hall
    rw [List.Nodup, List.Nodup, List.pairwise_map, List.pairwise_map]
    refine List.Pairwise.iff_of_mem fun {e f} he _ => not_congr ⟨fun heq => ?_, fun heq => ?_⟩
    · obtain ⟨su, hsu⟩ := initializable_iff_exists_names.1 (hall e he)
      have hsu := (subjectOf?_eq_some_iff hw hc).2 hsu
      exact name_eq_of_subjectOf? hw hc hsu (heq ▸ hsu)
    · rw [heq]
  constructor
  · rintro ⟨hall, hsubjects⟩
    exact ⟨hall, (hnodup hall).1 hsubjects⟩
  · rintro ⟨hall, hnames⟩
    exact ⟨hall, (hnodup hall).2 hnames⟩

theorem subjects_assignEntries {earlier assigned : List (Subject × Entry)} {es : List Entry}
    (hok : h.assignEntries c owner earlier es = .ok assigned) :
    assigned.map (fun p => some p.1) =
      earlier.map (fun p => some p.1) ++ es.map fun e => h.subjectOf? owner e.name := by
  -- on the entries that are left, while `earlier` grows
  induction es generalizing earlier with
  | nil =>
    cases hok
    rw [List.map_nil, List.append_nil]
  | cons e es ih =>
    obtain ⟨su, hsu, -, hok⟩ := assignEntries_cons_eq_ok_iff.1 hok
    rw [ih hok, List.map_append, List.map_singleton, List.append_assoc, List.map_cons, hsu]
    rfl

/-- The subjects found are those of the entries. -/
theorem exists_mem_assigned_iff {assigned : List (Subject × Entry)} {es : List Entry}
    (hok : h.assignEntries c owner [] es = .ok assigned) :
    (∃ p ∈ assigned, p.1 = su) ↔ ∃ e ∈ es, h.subjectOf? owner e.name = some su := by
  have hmap := subjects_assignEntries hok
  rw [List.map_nil, List.nil_append] at hmap
  calc (∃ p ∈ assigned, p.1 = su)
      ↔ some su ∈ assigned.map fun p => some p.1 := by
        simp only [List.mem_map, Option.some.injEq]
    _ ↔ some su ∈ es.map fun e => h.subjectOf? owner e.name := by rw [hmap]
    _ ↔ ∃ e ∈ es, h.subjectOf? owner e.name = some su := List.mem_map

/-! ## The entry at which a list is refused -/

/-- After `assigned` has been found, an entry has no subject, or one that is found already. -/
inductive EntryRefused (h : Hierarchy) (c : ClassDecl) (owner : ClassId)
    (assigned : List (Subject × Entry)) (e : Entry) : CheckError → Prop where
  | unknown (hnone : h.subjectOf? owner e.name = none) :
    EntryRefused h c owner assigned e (.unknownInitializer c.name e.name)
  | duplicate {su : Subject} (hsu : h.subjectOf? owner e.name = some su)
      (hfound : ∃ p ∈ assigned, p.1 = su) :
    EntryRefused h c owner assigned e (.duplicateInitializer c.name e.name)

theorem assignEntries_cons_eq_error_iff {earlier : List (Subject × Entry)} {e : Entry}
    {es : List Entry} {x : CheckError} :
    h.assignEntries c owner earlier (e :: es) = .error x ↔ h.EntryRefused c owner earlier e x ∨
      ∃ su, h.subjectOf? owner e.name = some su ∧ (∀ p ∈ earlier, p.1 ≠ su) ∧
        h.assignEntries c owner (earlier ++ [(su, e)]) es = .error x := by
  rw [assignEntries]
  cases hsu : h.subjectOf? owner e.name with
  | none =>
    simp only [reduceCtorEq, false_and, exists_false, or_false, Except.error.injEq]
    refine ⟨fun heq => heq ▸ .unknown hsu, fun hrefused => ?_⟩
    cases hrefused with
    | unknown => rfl
    | duplicate hsu' => cases hsu.symm.trans hsu'
  | some su =>
    have hany : (earlier.any fun p => p.1 = su) = true ↔ ∃ p ∈ earlier, p.1 = su := by
      simp only [List.any_eq_true, decide_eq_true_eq]
    by_cases hfound : ∃ p ∈ earlier, p.1 = su
    · simp only [hany.2 hfound, if_true, Except.error.injEq]
      constructor
      · exact fun heq => .inl (heq ▸ .duplicate hsu hfound)
      · rintro (hrefused | ⟨_, hsu', hall, -⟩)
        · cases hrefused with
          | unknown hnone => cases hsu.symm.trans hnone
          | duplicate => rfl
        · cases hsu'
          obtain ⟨p, hp, heq⟩ := hfound
          exact absurd heq (hall p hp)
    · simp only [mt hany.1 hfound, if_false, Bool.false_eq_true, Option.some.injEq]
      constructor
      · exact fun herror => .inr ⟨su, rfl, fun p hp heq => hfound ⟨p, hp, heq⟩, herror⟩
      · rintro (hrefused | ⟨_, rfl, -, herror⟩)
        · cases hrefused with
          | unknown hnone => cases hsu.symm.trans hnone
          | duplicate hsu' hfound' =>
            cases hsu.symm.trans hsu'
            exact absurd hfound' hfound
        · exact herror

/-- **A list of entries is refused at the first entry without a subject of its own.** -/
theorem assignEntries_eq_error_iff {earlier : List (Subject × Entry)} {es : List Entry}
    {x : CheckError} : h.assignEntries c owner earlier es = .error x ↔
      ∃ before e after assigned, es = before ++ e :: after ∧
        h.assignEntries c owner earlier before = .ok assigned ∧
          h.EntryRefused c owner assigned e x := by
  -- on the entries that are left, while `earlier` grows
  induction es generalizing earlier with
  | nil => simp [assignEntries]
  | cons e es ih =>
    rw [assignEntries_cons_eq_error_iff]
    constructor
    · rintro (hrefused | ⟨su, hsu, hnew, herror⟩)
      · exact ⟨[], e, es, earlier, rfl, rfl, hrefused⟩
      · obtain ⟨before, f, after, assigned, rfl, hok, hrefused⟩ := ih.1 herror
        exact ⟨e :: before, f, after, assigned, rfl,
          assignEntries_cons_eq_ok_iff.2 ⟨su, hsu, hnew, hok⟩, hrefused⟩
    · rintro ⟨before, f, after, assigned, hes, hok, hrefused⟩
      cases before with
      | nil =>
        cases hes
        cases hok
        exact .inl hrefused
      | cons _ before =>
        cases hes
        obtain ⟨su, hsu, hnew, hok⟩ := assignEntries_cons_eq_ok_iff.1 hok
        exact .inr ⟨su, hsu, hnew, ih.2 ⟨before, f, after, assigned, rfl, hok, hrefused⟩⟩

/-- An entry is for nothing, or repeats the name of an earlier one. -/
inductive EntryError (h : Hierarchy) (c : ClassDecl) (before : List Entry) (e : Entry) :
    CheckError → Prop where
  | unknown (hno : ¬ h.Initializable c e.name) :
    EntryError h c before e (.unknownInitializer c.name e.name)
  | repeated (hmem : ∃ f ∈ before, f.name = e.name) :
    EntryError h c before e (.duplicateInitializer c.name e.name)

theorem entryRefused_iff_entryError (hw : h.WellFormed) (hc : h.class? owner = some c)
    {before : List Entry} {assigned : List (Subject × Entry)} {e : Entry} {x : CheckError}
    (hok : h.assignEntries c owner [] before = .ok assigned) :
    h.EntryRefused c owner assigned e x ↔ h.EntryError c before e x := by
  have hno : h.subjectOf? owner e.name = none ↔ ¬ h.Initializable c e.name := by
    rw [initializable_iff_exists_names, Option.eq_none_iff_forall_ne_some, not_exists]
    simp only [ne_eq, subjectOf?_eq_some_iff hw hc]
  constructor
  · intro hrefused
    cases hrefused with
    | unknown hnone => exact .unknown (hno.1 hnone)
    | duplicate hsu hfound =>
      obtain ⟨f, hf, hsu'⟩ := (exists_mem_assigned_iff hok).1 hfound
      exact .repeated ⟨f, hf, name_eq_of_subjectOf? hw hc hsu' hsu⟩
  · intro herror
    cases herror with
    | unknown hunknown => exact .unknown (hno.2 hunknown)
    | repeated hrepeated =>
      obtain ⟨f, hf, hname⟩ := hrepeated
      -- the subject is the one of the earlier entry
      obtain ⟨su, hsu, -⟩ := (exists_assignEntries_iff.1 ⟨assigned, hok⟩).1 f hf
      exact .duplicate (hname ▸ hsu) ((exists_mem_assigned_iff hok).2 ⟨f, hf, hsu⟩)

/-! ## The sites -/

/--
The site of a subject: explicit, with the arguments and the span of an entry for the subject, or
else implicit, where the initializer list begins or, without one, at the brace of the body.
-/
inductive SiteOf (h : Hierarchy) (c : ClassDecl) (d : Definition) (su : Subject) : Site → Prop where
  | explicit {e : Entry} (he : e ∈ d.entries) (hsu : h.Names c e.name su) :
    SiteOf h c d su ⟨d.owner, su, some e.arguments, e.span⟩
  | implicit (hno : ∀ e ∈ d.entries, ¬ h.Names c e.name su) :
    SiteOf h c d su ⟨d.owner, su, none, d.initializerList?.getD d.bodyOpen⟩

theorem siteOf_siteOf (hw : h.WellFormed) (hc : h.class? d.owner = some c)
    {assigned : List (Subject × Entry)}
    (hok : h.assignEntries c d.owner [] d.entries = .ok assigned) (su : Subject) :
    h.SiteOf c d su (siteOf d.owner d.implicitPoint assigned su) := by
  rw [siteOf, lookup_assigned hok]
  cases hfind : d.entries.find? fun e => h.subjectOf? d.owner e.name = some su with
  | some e =>
    have hsu : h.subjectOf? d.owner e.name = some su := by simpa using List.find?_some hfind
    exact .explicit (List.mem_of_find?_eq_some hfind) ((subjectOf?_eq_some_iff hw hc).1 hsu)
  | none =>
    refine .implicit fun e he hsu => ?_
    rw [← subjectOf?_eq_some_iff hw hc] at hsu
    simpa [hsu] using List.find?_eq_none.1 hfind e he

/-- A subject with an entry has the site of the entry, if no other has the name. -/
theorem SiteOf.eq_of_mem (hw : h.WellFormed) (hc : h.class? d.owner = some c)
    (hnodup : (d.entries.map (·.name)).Nodup) {e : Entry} (he : e ∈ d.entries)
    (hsu : h.Names c e.name su) {s : Site} (hs : h.SiteOf c d su s) :
    s = ⟨d.owner, su, some e.arguments, e.span⟩ := by
  cases hs with
  | @explicit f hf hsu' =>
    have hname : f.name = e.name := name_eq_of_subjectOf? hw hc
      ((subjectOf?_eq_some_iff hw hc).2 hsu') ((subjectOf?_eq_some_iff hw hc).2 hsu)
    rw [List.inj_on_of_nodup_map hnodup hf he hname]
  | implicit hno => exact absurd hsu (hno e he)

/-- What is constructed once has one site. -/
theorem filter_sites_eq {assigned : List (Subject × Entry)} {l : List Subject} (hnodup : l.Nodup)
    (hsu : su ∈ l) (point : Span) :
    ((l.map (siteOf owner point assigned)).filter fun s => s.subject = su) =
      [siteOf owner point assigned su] := by
  have hsubject : ((fun s : Site => decide (s.subject = su)) ∘ siteOf owner point assigned) =
      fun x => decide (x = su) := funext fun x => by simp only [Function.comp, subject_siteOf]
  rw [List.filter_map, hsubject, List.filter_eq, List.count_eq_one_of_mem hnodup hsu]
  rfl

/--
**What a definition makes of its initializer list.** It is accepted if and only if each of its
entries has the name of a member or of a direct base, and no two have the same name. Its sites are
then those of the direct bases and of the members that are constructed, in the order of declaration;
each entry but those of scalar members is found at one of them, whatever the order of the entries.
Otherwise the definition is refused because of the first entry that is for nothing or repeats the
name of an earlier one.
-/
theorem sitesOf_spec (hr : h.Reachable) (hc : h.class? d.owner = some c) :
    ((∃ sites, h.sitesOf d = .ok sites) ↔ h.Assignable c d.entries) ∧
    (∀ sites, h.sitesOf d = .ok sites →
      List.Forall₂ (h.SiteOf c d) (h.subjectsOf c d) sites ∧
      (∀ e ∈ d.entries,
        (∀ m ∈ h.membersOf c, m.name = e.name → m.type.class?.isSome = true) →
        ∃ su, h.Names c e.name su ∧ (sites.filter fun s => s.subject = su) =
          [⟨d.owner, su, some e.arguments, e.span⟩]) ∧
      ∀ es, d.entries.Perm es → h.sitesOf { d with entries := es } = .ok sites) ∧
    ∀ x, h.sitesOf d = .error x ↔ ∃ before e after, d.entries = before ++ e :: after ∧
      h.Assignable c before ∧ h.EntryError c before e x := by
  have hw := hr.wellFormed
  refine ⟨?_, fun sites hok => ⟨?_, fun e he hscalar => ?_, fun es hp => sitesOf_of_perm hp hok⟩,
    fun x => ?_⟩
  · rw [← exists_assignEntries_iff_assignable hw hc, sitesOf_eq_map hc]
    simp only [map_eq_ok_iff, exists_comm, exists_and_left, exists_eq', and_true]
  · rw [sitesOf_eq_map hc] at hok
    obtain ⟨assigned, hassigned, rfl⟩ := map_eq_ok_iff.1 hok
    rw [constructed_eq_subjectsOf hw hc hassigned, List.forall₂_map_right_iff, List.forall₂_same]
    exact fun su _ => siteOf_siteOf hw hc hassigned su
  · rw [sitesOf_eq_map hc] at hok
    obtain ⟨assigned, hassigned, rfl⟩ := map_eq_ok_iff.1 hok
    have hentries := (exists_assignEntries_iff_assignable hw hc).1 ⟨assigned, hassigned⟩
    obtain ⟨su, hsu⟩ := initializable_iff_exists_names.1 (hentries.initializable e he)
    have hmem : su ∈ h.constructed c assigned := by
      rw [constructed_eq_subjectsOf hw hc hassigned]
      exact hsu.mem_subjectsOf he hscalar
    refine ⟨su, hsu, ?_⟩
    rw [filter_sites_eq (constructed_nodup hw hc assigned) hmem,
      (siteOf_siteOf hw hc hassigned su).eq_of_mem hw hc hentries.nodup he hsu]
  · rw [sitesOf_eq_map hc, map_eq_error_iff, assignEntries_eq_error_iff]
    refine exists_congr fun before => exists_congr fun e => exists_congr fun after => ?_
    rw [← exists_assignEntries_iff_assignable hw hc]
    constructor
    · rintro ⟨assigned, hentries, hok, hrefused⟩
      exact ⟨hentries, ⟨assigned, hok⟩, (entryRefused_iff_entryError hw hc hok).1 hrefused⟩
    · rintro ⟨hentries, ⟨assigned, hok⟩, herror⟩
      exact ⟨assigned, hentries, hok, (entryRefused_iff_entryError hw hc hok).2 herror⟩

/-- Initializers out of order: those of a scalar member, of a member and of a base. -/
theorem sitesOf_spec_outOfOrder :
    let h := Hierarchy.empty.run [.newClass "Base" .unknown, .newClass "Derived" .unknown,
      .base ⟨1⟩ ⟨0⟩ .publicAccess .unknown,
      .member ⟨1⟩ "count" (.primitive .int) .publicAccess none .unknown,
      .member ⟨1⟩ "part" (.ofClass ⟨0⟩) .publicAccess none .unknown]
    let c : ClassDecl := ⟨⟨1⟩, "Derived", .unknown, .unknown, [⟨⟨0⟩, .publicAccess, .unknown⟩],
      [⟨0⟩, ⟨1⟩], []⟩
    let entry (name : String) : Entry := ⟨name, [.primitive .int], .unknown⟩
    let definition (entries : List Entry) : Definition := ⟨⟨1⟩, none, .unknown, entries⟩
    let sites : List Site := [⟨⟨1⟩, .base ⟨0⟩, some [.primitive .int], .unknown⟩,
      ⟨⟨1⟩, .member ⟨1⟩, some [.primitive .int], .unknown⟩]
    h.Reachable ∧ h.class? ⟨1⟩ = some c ∧
      h.sitesOf (definition [entry "count", entry "part", entry "Base"]) = .ok sites ∧
      h.sitesOf (definition [entry "Base", entry "count", entry "part"]) = .ok sites ∧
      h.sitesOf (definition [entry "part", entry "part", entry "width"]) =
        .error (.duplicateInitializer "Derived" "part") := by
  intro h c entry definition sites
  have hr : h.Reachable := ⟨_, rfl⟩
  have hh : h = ⟨[⟨⟨0⟩, "Base", .unknown, .unknown, [], [], []⟩, c],
      [⟨⟨0⟩, ⟨1⟩, "count", .primitive .int, .publicAccess, false, .unknown⟩,
        ⟨⟨1⟩, ⟨1⟩, "part", .ofClass ⟨0⟩, .publicAccess, true, .unknown⟩], [],
      [("Derived", ⟨1⟩), ("Base", ⟨0⟩)]⟩ := by
    unfold h c
    cbv
  rw [hh] at hr ⊢
  obtain ⟨-, hsites, -⟩ :=
    sitesOf_spec hr (d := definition [entry "count", entry "part", entry "Base"]) rfl
  obtain ⟨-, -, herror⟩ :=
    sitesOf_spec hr (d := definition [entry "part", entry "part", entry "width"]) rfl
  obtain ⟨-, -, hperm⟩ := hsites sites rfl
  refine ⟨hr, rfl, rfl, hperm _ ?_, (herror _).2 ?_⟩
  · exact List.perm_append_singleton (entry "Base") [entry "count", entry "part"]
  · refine ⟨[entry "part"], entry "part", [entry "width"], rfl, ⟨?_, ?_⟩, ?_⟩
    · exact List.forall_mem_singleton.2 (.inl ⟨_, List.mem_cons_of_mem _ List.mem_cons_self, rfl⟩)
    · exact List.nodup_singleton _
    · exact .repeated ⟨_, List.mem_cons_self, rfl⟩

end ConstructorCheck.Hierarchy
