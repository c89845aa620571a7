import ConstructorCheck.Proofs.Check.Initializers
/-!
# Initializers written out

A base or a default-initialized member without an entry is constructed implicitly, without
arguments. Its entry may also be written out, with empty parentheses: that makes the site explicit
and changes nothing else, neither the other sites nor the verdict.

* `DefaultSubject` — what is constructed without an entry
* `sitesOf_insert` — one more entry, for a subject that is constructed anyway
* `checkSite_writtenOut` — the verdicts on the two sites of the subject
* `sitesOf_writtenOut` — all of it
-/

namespace ConstructorCheck.Hierarchy

variable {h : Hierarchy} {c : ClassDecl} {owner : ClassId} {d : Definition} {sites : List Site}
  {su : Subject} {name : String}

/-! ## What is constructed without an entry -/

/--
The subjects that a constructor of `owner` constructs even if they have no entry, with the name
that an entry would have: the direct bases that no member hides, and the members of class type that
are default-initialized.
-/
inductive DefaultSubject (h : Hierarchy) (owner : ClassId) : Subject → String → Prop where
  | base {c e : ClassDecl} {b : BaseSpecifier} (hc : h.class? owner = some c) (hb : b ∈ c.bases)
      (he : h.class? b.base = some e) (hhidden : ∀ m ∈ h.membersOf c, m.name ≠ e.name) :
    DefaultSubject h owner (.base b.base) e.name
  | member {c : ClassDecl} {m : MemberDecl} (hc : h.class? owner = some c)
      (hm : m ∈ h.membersOf c) (htype : m.type.class?.isSome = true)
      (hdefault : m.defaultInit = true) : DefaultSubject h owner (.member m.id) m.name

theorem DefaultSubject.subjectOf?_eq (hw : h.WellFormed) (hsu : h.DefaultSubject owner su name) :
    h.subjectOf? owner name = some su := by
  cases hsu with
  | base hc hb he hhidden =>
    exact (subjectOf?_eq_base_iff hw hc).2 ⟨hhidden, ⟨_, hb, rfl⟩, _, he, rfl⟩
  | member hc hm => exact (subjectOf?_eq_member_iff hw hc).2 ⟨_, hm, rfl, rfl⟩

theorem DefaultSubject.mem_constructed (hsu : h.DefaultSubject owner su name)
    (hc : h.class? owner = some c) (assigned : List (Subject × Entry)) :
    su ∈ h.constructed c assigned := by
  cases hsu with
  | base hc' hb =>
    rw [hc] at hc'
    cases hc'
    exact List.mem_append_left _ (List.mem_map.2 ⟨_, hb, rfl⟩)
  | member hc' hm htype hdefault =>
    rw [hc] at hc'
    cases hc'
    refine List.mem_append_right _ (List.mem_map.2 ⟨_, List.mem_filter.2 ⟨hm, ?_⟩, rfl⟩)
    rw [constructsMember, htype, hdefault, Bool.or_true]
    rfl

/-! ## One more entry -/

/-- Among entries without the subject of a new one, the new one is found at its subject only. -/
theorem find?_insert {before after : List Entry} {e : Entry}
    (hsu : h.subjectOf? owner e.name = some su)
    (hno : ∀ f ∈ before ++ after, h.subjectOf? owner f.name ≠ some su) (x : Subject) :
    ((before ++ e :: after).find? fun f => h.subjectOf? owner f.name = some x) =
      if x = su then some e
      else (before ++ after).find? fun f => h.subjectOf? owner f.name = some x := by
  rw [List.find?_append, List.find?_cons, hsu, List.find?_append]
  by_cases hx : x = su
  · subst hx
    have hbefore : (before.find? fun f => h.subjectOf? owner f.name = some x) = none :=
      List.find?_eq_none.2 fun f hf => by simpa using hno f (List.mem_append_left _ hf)
    simp [hbefore]
  · simp [hx, Ne.symm hx]

/-- An entry for a subject that no other entry has can be put anywhere. -/
theorem exists_assignEntries_insert {before after : List Entry} {e : Entry}
    {assigned : List (Subject × Entry)}
    (hok : h.assignEntries c owner [] (before ++ after) = .ok assigned)
    (hsu : h.subjectOf? owner e.name = some su)
    (hno : ∀ f ∈ before ++ after, h.subjectOf? owner f.name ≠ some su) :
    ∃ assigned', h.assignEntries c owner [] (before ++ e :: after) = .ok assigned' ∧
      ∀ x, assigned'.lookup x = if x = su then some e else assigned.lookup x := by
  obtain ⟨hknown, hnodup⟩ := exists_assignEntries_iff.1 ⟨assigned, hok⟩
  have hperm : (before ++ e :: after).Perm (e :: (before ++ after)) := List.perm_middle
  obtain ⟨assigned', hok'⟩ : ∃ assigned', h.assignEntries c owner [] (before ++ e :: after) =
      .ok assigned' := by
    refine exists_assignEntries_iff.2 ⟨fun f hf => ?_, (hperm.map _).nodup_iff.2 ?_⟩
    · rcases List.mem_cons.1 (hperm.mem_iff.1 hf) with rfl | hf
      · exact ⟨su, hsu, fun _ hp => absurd hp List.not_mem_nil⟩
      · exact hknown f hf
    · rw [List.map_cons, hsu]
      refine List.nodup_cons.2 ⟨fun hmem => ?_, hnodup⟩
      obtain ⟨f, hf, heq⟩ := List.mem_map.1 hmem
      exact hno f hf heq
  refine ⟨assigned', hok', fun x => ?_⟩
  rw [lookup_assigned hok', lookup_assigned hok]
  exact find?_insert hsu hno x

/-- What is constructed anyway is not constructed because of an entry. -/
theorem DefaultSubject.constructed_congr (hw : h.WellFormed)
    (hsu : h.DefaultSubject owner su name) (hc : h.class? owner = some c)
    {assigned assigned' : List (Subject × Entry)}
    (hlookup : ∀ x, x ≠ su → assigned'.lookup x = assigned.lookup x) :
    h.constructed c assigned' = h.constructed c assigned := by
  have hfilter : (h.membersOf c).filter (constructsMember assigned') =
      (h.membersOf c).filter (constructsMember assigned) := by
    refine List.filter_congr fun m hm => ?_
    by_cases hx : Subject.member m.id = su
    · -- the member with this id is default-initialized
      have hdefault : m.defaultInit = true := by
        cases hsu with
        | base => cases hx
        | @member _ n hc' hn _ hdefault =>
          rw [hc] at hc'
          cases hc'
          have hid : m.id = n.id := Subject.member.inj hx
          have hm := ((mem_membersOf_iff hw hc).1 hm).1
          rw [hid, ((mem_membersOf_iff hw hc).1 hn).1] at hm
          cases hm
          exact hdefault
      rw [constructsMember, constructsMember, hdefault, Bool.or_true, Bool.or_true]
    · rw [constructsMember, constructsMember, hlookup _ hx]
  rw [constructed, constructed, hfilter]

/-- **An entry for what is constructed anyway changes one site only.** -/
theorem sitesOf_insert (hw : h.WellFormed) (hok : h.sitesOf d = .ok sites)
    (hsu : h.DefaultSubject d.owner su name) (hno : ∀ f ∈ d.entries, f.name ≠ name)
    {before after : List Entry} (hentries : d.entries = before ++ after)
    (args : List TypeRef) (span : Span) :
    ∃ pre post, sites = pre ++ ⟨d.owner, su, none, d.implicitPoint⟩ :: post ∧
      h.sitesOf { d with entries := before ++ ⟨name, args, span⟩ :: after } =
        .ok (pre ++ ⟨d.owner, su, some args, span⟩ :: post) ∧
      ∀ s ∈ pre ++ post, s.subject ≠ su := by
  obtain ⟨c, assigned, hc, hassigned, rfl⟩ := sitesOf_eq_ok_iff.1 hok
  have hname := hsu.subjectOf?_eq hw
  have hother : ∀ f ∈ d.entries, h.subjectOf? d.owner f.name ≠ some su := fun f hf heq =>
    hno f hf (name_eq_of_subjectOf? hw hc heq hname)
  have hfree : assigned.lookup su = none := by
    rw [lookup_assigned hassigned, List.find?_eq_none]
    simpa using hother
  rw [hentries] at hassigned hother
  obtain ⟨assigned', hassigned', hlookup⟩ :=
    exists_assignEntries_insert (e := ⟨name, args, span⟩) hassigned hname hother
  -- the subject stands once among what is constructed, before and after
  obtain ⟨pre, post, hsplit⟩ := List.append_of_mem (hsu.mem_constructed hc assigned)
  have hnodup := constructed_nodup hw hc assigned
  rw [hsplit] at hnodup
  have hne : ∀ x ∈ pre ++ post, x ≠ su := fun x hx heq =>
    (List.nodup_cons.1 (List.nodup_middle.1 hnodup)).1 (heq ▸ hx)
  have hsame : ∀ x ∈ pre ++ post, siteOf d.owner d.implicitPoint assigned' x =
      siteOf d.owner d.implicitPoint assigned x := fun x hx => by
    rw [siteOf, siteOf, hlookup, if_neg (hne x hx)]
  have hold : siteOf d.owner d.implicitPoint assigned su =
      ⟨d.owner, su, none, d.implicitPoint⟩ := by rw [siteOf, hfree]
  have hnew : siteOf d.owner d.implicitPoint assigned' su = ⟨d.owner, su, some args, span⟩ := by
    rw [siteOf, hlookup, if_pos rfl]
  refine ⟨pre.map (siteOf d.owner d.implicitPoint assigned),
    post.map (siteOf d.owner d.implicitPoint assigned), ?_, ?_, ?_⟩
  · rw [hsplit, List.map_append, List.map_cons, hold]
  · have hconstructed : h.constructed c assigned' = pre ++ su :: post := by
      rw [← hsplit]
      exact hsu.constructed_congr hw hc fun x hx => by rw [hlookup, if_neg hx]
    refine sitesOf_eq_ok_iff.2 ⟨c, assigned', hc, hassigned', ?_⟩
    show _ = (h.constructed c assigned').map (siteOf d.owner d.implicitPoint assigned')
    rw [hconstructed, List.map_append, List.map_cons, hnew,
      List.map_congr_left fun x hx => hsame x (List.mem_append_left _ hx),
      List.map_congr_left fun x hx => hsame x (List.mem_append_right _ hx)]
  · rw [← List.map_append]
    intro s hs
    obtain ⟨x, hx, rfl⟩ := List.mem_map.1 hs
    rw [subject_siteOf]
    exact hne x hx

/-! ## The verdicts -/

/--
The verdicts on a site `s` without an initializer and on a site `s'` with an initializer that has no
arguments: they are the same, but for the kind of finding when nothing can be called.
-/
inductive SameVerdict (s s' : Site) : Option Finding → Option Finding → Prop where
  | accepted : SameVerdict s s' none none
  | inaccessible (k : Candidate) :
    SameVerdict s s' (some (.inaccessible s k)) (some (.inaccessible s' k))
  | ambiguous (t : ClassId) (tied : List ConstructorRef) :
    SameVerdict s s' (some (.atSite .ambiguousConstructor s t tied))
      (some (.atSite .ambiguousConstructor s' t tied))
  | noDefault (t : ClassId) (considered : List ConstructorRef) :
    SameVerdict s s' (some (.atSite .missingImplicitDefault s t considered))
      (some (.atSite .noViableConstructor s' t considered))

section SameSubject

variable {s s' : Site}

/-- The same candidate may be called at both sites, or at none. -/
theorem sameVerdict_accessFinding (hcontext : s'.context = s.context) (k : Candidate) :
    SameVerdict s s' (h.accessFinding s k) (h.accessFinding s' k) := by
  rw [accessFinding, accessFinding, hcontext]
  split
  · exact .accepted
  · exact .inaccessible k

/-- The target depends on the context and the subject only. -/
theorem targetOf_congr (hcontext : s'.context = s.context) (hsubject : s'.subject = s.subject) :
    h.targetOf s' = h.targetOf s := by
  rw [targetOf, targetOf, hcontext, hsubject]

/-- **Writing an initializer without arguments out does not change the verdict.** -/
theorem checkSite_writtenOut (hw : h.WellFormed) (hcontext : s'.context = s.context)
    (hsubject : s'.subject = s.subject) (hold : s.arguments? = none)
    (hnew : s'.arguments? = some []) {t : ClassId} (ht : h.targetOf s = .ok t) :
    ∃ v v', h.checkSite s = .ok v ∧ h.checkSite s' = .ok v' ∧ SameVerdict s s' v v' := by
  obtain ⟨e, he⟩ := targetOf_declared hw ht
  obtain ⟨cs, hcs⟩ := exists_candidatesOf he
  have hg := gather_eq_ok ht hcs
  have hg' := gather_eq_ok ((targetOf_congr hcontext hsubject).trans ht) hcs
  have hargs : s.arguments = [] := by rw [Site.arguments, hold]; rfl
  have hargs' : s'.arguments = [] := by rw [Site.arguments, hnew]; rfl
  simp only [Site.isImplicit, hold, Option.isNone_none, Bool.true_and] at hg
  simp only [Site.isImplicit, hnew, Option.isNone_some, Bool.false_and, Bool.false_eq_true,
    if_false] at hg'
  cases hdefault : cs.any (·.isDefault) with
  | true =>
    rw [hdefault, Bool.not_true, if_neg Bool.false_ne_true] at hg
    cases hres : h.resolve cs [] with
    | resolved w =>
      exact ⟨_, _, checkSite_of_resolved hg (hargs ▸ hres),
        checkSite_of_resolved hg' (hargs' ▸ hres), sameVerdict_accessFinding hcontext w.candidate⟩
    | ambiguous tied =>
      exact ⟨_, _, checkSite_of_ambiguous hg (hargs ▸ hres),
        checkSite_of_ambiguous hg' (hargs' ▸ hres), .ambiguous t tied⟩
    | noMatch =>
      -- a candidate that takes no arguments is viable
      obtain ⟨k, hk, hkdefault⟩ := List.any_eq_true.1 hdefault
      exact absurd (isDefault_iff_viable.1 hkdefault) (resolve_eq_noMatch_iff.1 hres k hk)
  | false =>
    rw [hdefault, Bool.not_false, if_pos rfl] at hg
    have hres : h.resolve cs [] = .noMatch := resolve_eq_noMatch_iff.2 fun k hk hviable =>
      List.any_eq_false.1 hdefault k hk (isDefault_iff_viable.2 hviable)
    exact ⟨_, _, bind_eq_ok_iff.2 ⟨_, hg, rfl⟩, checkSite_of_noMatch hg' (hargs' ▸ hres),
      .noDefault t _⟩

end SameSubject

/--
**Initializers written out.** Let a definition be accepted that has no entry for one of the subjects
that it constructs anyway. With an entry for it without arguments, put anywhere, the definition is
accepted again and has the same sites but for the one of that subject, which becomes explicit and
stands at the new entry. The verdicts on the two sites agree.
-/
theorem sitesOf_writtenOut (hr : h.Reachable) (hok : h.sitesOf d = .ok sites)
    (hsu : h.DefaultSubject d.owner su name) (hno : ∀ e ∈ d.entries, e.name ≠ name)
    (before after : List Entry) (hentries : d.entries = before ++ after) (span : Span) :
    ∃ pre post, sites = pre ++ ⟨d.owner, su, none, d.implicitPoint⟩ :: post ∧
      h.sitesOf { d with entries := before ++ ⟨name, [], span⟩ :: after } =
        .ok (pre ++ ⟨d.owner, su, some [], span⟩ :: post) ∧
      (∀ s ∈ pre ++ post, s.subject ≠ su) ∧
      ∃ v v', h.checkSite ⟨d.owner, su, none, d.implicitPoint⟩ = .ok v ∧
        h.checkSite ⟨d.owner, su, some [], span⟩ = .ok v' ∧
          SameVerdict ⟨d.owner, su, none, d.implicitPoint⟩ ⟨d.owner, su, some [], span⟩ v v' := by
  have hw := hr.wellFormed
  obtain ⟨pre, post, hsites, hinsert, hne⟩ := sitesOf_insert hw hok hsu hno hentries [] span
  have hmem : (⟨d.owner, su, none, d.implicitPoint⟩ : Site) ∈ sites := by
    rw [hsites]
    exact List.mem_append_right _ List.mem_cons_self
  obtain ⟨t, ht⟩ := targetOf_of_mem_sitesOf hw hok hmem
  exact ⟨pre, post, hsites, hinsert, hne, checkSite_writtenOut hw rfl rfl rfl rfl ht⟩

/-- A base that cannot be default-constructed, written out between two members. -/
theorem sitesOf_writtenOut_between :
    let h := Hierarchy.empty.run [.newClass "Base" .unknown,
      .constructor ⟨0⟩ [⟨.primitive .int, false⟩] .publicAccess .unknown,
      .newClass "Derived" .unknown, .base ⟨1⟩ ⟨0⟩ .publicAccess .unknown,
      .member ⟨1⟩ "first" (.ofClass ⟨0⟩) .publicAccess none .unknown,
      .member ⟨1⟩ "second" (.ofClass ⟨0⟩) .publicAccess none .unknown]
    let entry (name : String) : Entry := ⟨name, [.primitive .int], .unknown⟩
    let d : Definition := ⟨⟨1⟩, none, .unknown, [entry "first", entry "second"]⟩
    let span : Span := ⟨0, 9, 4⟩
    let old : Site := ⟨⟨1⟩, .base ⟨0⟩, none, .unknown⟩
    let new : Site := ⟨⟨1⟩, .base ⟨0⟩, some [], span⟩
    h.Reachable ∧ h.DefaultSubject d.owner (.base ⟨0⟩) "Base" ∧
      (∀ e ∈ d.entries, e.name ≠ "Base") ∧
      ∃ pre post, h.sitesOf d = .ok (pre ++ old :: post) ∧
        h.sitesOf { d with entries := [entry "first", ⟨"Base", [], span⟩, entry "second"] } =
          .ok (pre ++ new :: post) ∧
        h.checkSite old = .ok (some (.atSite .missingImplicitDefault old ⟨0⟩ [.declared ⟨0⟩])) ∧
        h.checkSite new = .ok (some (.atSite .noViableConstructor new ⟨0⟩ [.declared ⟨0⟩])) := by
  intro h entry d span old new
  have hr : h.Reachable := ⟨_, rfl⟩
  have hh : h = ⟨[⟨⟨0⟩, "Base", .unknown, .unknown, [], [], [⟨0⟩]⟩,
      ⟨⟨1⟩, "Derived", .unknown, .unknown, [⟨⟨0⟩, .publicAccess, .unknown⟩], [⟨0⟩, ⟨1⟩], []⟩],
      [⟨⟨0⟩, ⟨1⟩, "first", .ofClass ⟨0⟩, .publicAccess, true, .unknown⟩,
        ⟨⟨1⟩, ⟨1⟩, "second", .ofClass ⟨0⟩, .publicAccess, true, .unknown⟩],
      [⟨⟨0⟩, ⟨0⟩, [⟨.primitive .int, false⟩], .publicAccess, .unknown⟩],
      [("Derived", ⟨1⟩), ("Base", ⟨0⟩)]⟩ := by
    unfold h
    cbv
  have hsu : h.DefaultSubject ⟨1⟩ (.base ⟨0⟩) "Base" := by
    rw [hh]
    exact .base (c := ⟨⟨1⟩, "Derived", .unknown, .unknown, [⟨⟨0⟩, .publicAccess, .unknown⟩],
        [⟨0⟩, ⟨1⟩], []⟩) (b := ⟨⟨0⟩, .publicAccess, .unknown⟩)
      (e := ⟨⟨0⟩, "Base", .unknown, .unknown, [], [], [⟨0⟩]⟩)
      rfl List.mem_cons_self rfl (by decide)
  have hno : ∀ e ∈ d.entries, e.name ≠ "Base" := by decide
  rw [hh] at hr hsu ⊢
  obtain ⟨pre, post, hsites, hinsert, -, v, v', hv, hv', hsame⟩ :=
    sitesOf_writtenOut hr (d := d) rfl hsu hno [entry "first"] [entry "second"] rfl span
  cases hv
  cases hsame
  exact ⟨hr, hsu, hno, pre, post, congrArg Except.ok hsites, hinsert, rfl, hv'⟩

end ConstructorCheck.Hierarchy
