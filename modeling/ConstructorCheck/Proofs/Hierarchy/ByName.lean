import Mathlib
import ConstructorCheck.Hierarchy.History
import ConstructorCheck.Proofs.Hierarchy.WellFormed
/-!
# Searches by name

Members and direct bases are found by scanning the lists of a class. In a well-formed hierarchy a
name belongs to one record at most, so the first hit of a scan is the only possible one.

* `memberByName_eq_ok_iff` — the member of a class with a name
* `resolveBase_eq_ok_iff` — the direct base of a class with a name
* `byName_spec` — both scans and the name index agree
-/

namespace ConstructorCheck.Hierarchy

variable {h : Hierarchy} {c : ClassDecl} {owner id : ClassId} {name : String}

/-- Two classes with the same name are one. -/
theorem WellFormed.class_name_inj (hw : h.WellFormed) {i j : ClassId} {c d : ClassDecl}
    (hc : h.class? i = some c) (hd : h.class? j = some d) (hname : c.name = d.name) : i = j := by
  have hi := hw.lookup_name.2 ⟨c, hc, hname⟩
  rw [hw.lookup_name.2 ⟨d, hd, rfl⟩] at hi
  exact (Option.some.inj hi).symm

theorem mem_membersOf_iff (hw : h.WellFormed) (hc : h.class? id = some c) {m : MemberDecl} :
    m ∈ h.membersOf c ↔ h.member? m.id = some m ∧ m.owner = id :=
  hw.owned_members.mem_filterMap_iff (by rw [hc]; rfl)

theorem WellFormed.member_name_inj (hw : h.WellFormed) (hc : h.class? owner = some c)
    {m n : MemberDecl} (hm : m ∈ h.membersOf c) (hn : n ∈ h.membersOf c)
    (hname : m.name = n.name) : m = n := by
  obtain ⟨hm, hmo⟩ := (mem_membersOf_iff hw hc).1 hm
  obtain ⟨hn, hno⟩ := (mem_membersOf_iff hw hc).1 hn
  have hid : m.id = n.id := hw.owned_members.key_inj hm hn (hmo.trans hno.symm) hname
  rw [hid, hn] at hm
  exact (Option.some.inj hm).symm

/-- **A class has one member of a name at most, and the search for the name finds it.** -/
theorem memberByName_eq_ok_iff (hw : h.WellFormed) (hc : h.class? owner = some c) {id : MemberId} :
    h.memberByName owner name = .ok id ↔ ∃ m ∈ h.membersOf c, m.id = id ∧ m.name = name := by
  have hsearch : h.memberByName owner name =
      ((h.membersOf c).find? fun m => m.name == name).elim
        (.error (.memberNotFound c.name name)) fun m => .ok m.id := by
    simp only [memberByName, getClass_eq_ok_iff.2 hc, bind, Except.bind]
    cases (h.membersOf c).find? fun m => m.name == name <;> rfl
  rw [hsearch]
  cases hfind : (h.membersOf c).find? fun m => m.name == name with
  | none =>
    refine iff_of_false nofun ?_
    rintro ⟨m, hm, -, hname⟩
    simpa [hname] using List.find?_eq_none.1 hfind m hm
  | some m =>
    have hm := List.mem_of_find?_eq_some hfind
    have hname : m.name = name := by simpa using List.find?_some hfind
    rw [Option.elim_some, Except.ok.injEq]
    constructor
    · rintro rfl
      exact ⟨m, hm, rfl, hname⟩
    · rintro ⟨n, hn, rfl, hnname⟩
      rw [hw.member_name_inj hc hm hn (hname.trans hnname.symm)]

/-- A scan through declared bases ends at the first one with the name. -/
theorem findBase_eq_ok {bs : List BaseSpecifier}
    (hbs : ∀ b ∈ bs, ∃ d, h.class? b.base = some d) :
    h.findBase name bs = .ok ((bs.find? fun b =>
      (h.class? b.base).any fun d => d.name = name).map (·.base)) := by
  induction bs with
  | nil => rfl
  | cons b bs ih =>
    obtain ⟨⟨d, hd⟩, hbs⟩ := List.forall_mem_cons.1 hbs
    rw [findBase, getClass_eq_ok_iff.2 hd, List.find?_cons, hd]
    show (if d.name = name then _ else _) = _
    by_cases hname : d.name = name
    · simp [hname]
      rfl
    · simp [hname, ih hbs]

/-- **A class has one direct base of a name at most, and the search for the name finds it.** -/
theorem resolveBase_eq_ok_iff (hw : h.WellFormed) (hc : h.class? owner = some c) :
    h.resolveBase owner name = .ok id ↔
      (∃ b ∈ c.bases, b.base = id) ∧ ∃ d, h.class? id = some d ∧ d.name = name := by
  have hsearch : h.resolveBase owner name =
      match c.bases.find? fun b => (h.class? b.base).any fun d => d.name = name with
      | some b => .ok b.base
      | none => .error (.baseNotFound c.name name) := by
    rw [resolveBase, getClass_eq_ok_iff.2 hc]
    show (h.findBase name c.bases >>= _) = _
    rw [findBase_eq_ok (hw.base_declared hc)]
    cases c.bases.find? fun b => (h.class? b.base).any fun d => d.name = name <;> rfl
  rw [hsearch]
  cases hfind : c.bases.find? fun b => (h.class? b.base).any fun d => d.name = name with
  | none =>
    refine iff_of_false nofun ?_
    rintro ⟨⟨b, hb, rfl⟩, d, hd, hname⟩
    simpa [hd, hname] using List.find?_eq_none.1 hfind b hb
  | some b =>
    have hb := List.mem_of_find?_eq_some hfind
    obtain ⟨d, hd, hname⟩ : ∃ d, h.class? b.base = some d ∧ d.name = name := by
      simpa [Option.any_eq_true] using List.find?_some hfind
    rw [Except.ok.injEq]
    constructor
    · rintro rfl
      exact ⟨⟨b, hb, rfl⟩, d, hd, hname⟩
    · rintro ⟨-, d', hd', hname'⟩
      exact hw.class_name_inj hd hd' (hname.trans hname'.symm)

/-! ## The scans and the name index -/

/-- A member of a class with a name. -/
def MemberNamed (h : Hierarchy) (owner : ClassId) (name : String) (id : MemberId) : Prop :=
  ∃ m, h.member? id = some m ∧ m.owner = owner ∧ m.name = name

/-- An entry of a list without duplicates that alone passes a test is all that the test leaves. -/
theorem filter_eq_singleton {α : Type} [DecidableEq α] {l : List α} {p : α → Bool} {a : α}
    (hl : l.Nodup) (ha : a ∈ l) (hp : ∀ b ∈ l, p b = true ↔ b = a) : l.filter p = [a] := by
  have hsame : l.filter p = l.filter fun b => b = a :=
    List.filter_congr fun b hb => by rw [Bool.eq_iff_iff, hp b hb, decide_eq_true_iff]
  rw [hsame, List.filter_eq, List.count_eq_one_of_mem hl ha]
  rfl

theorem memberNamed_iff (hw : h.WellFormed) (hc : h.class? owner = some c) {id : MemberId} :
    h.MemberNamed owner name id ↔ ∃ m ∈ h.membersOf c, m.id = id ∧ m.name = name := by
  constructor
  · rintro ⟨m, hm, howner, hname⟩
    have hid : m.id = id := hw.owned_members.id_eq hm
    exact ⟨m, (mem_membersOf_iff hw hc).2 ⟨hid ▸ hm, howner⟩, hid, hname⟩
  · rintro ⟨m, hm, rfl, hname⟩
    obtain ⟨hm, howner⟩ := (mem_membersOf_iff hw hc).1 hm
    exact ⟨m, hm, howner, hname⟩

/-- The scan through the members of a class has one hit at most. -/
theorem filter_membersOf_eq (hw : h.WellFormed) (hc : h.class? owner = some c) {m : MemberDecl}
    (hm : m ∈ h.membersOf c) :
    ((h.membersOf c).filter fun n => n.name == m.name) = [m] := by
  have hnodup : ((h.membersOf c).map (·.name)).Nodup :=
    hw.owned_members.keys_nodup (by rw [hc]; rfl)
  refine filter_eq_singleton hnodup.of_map hm fun n hn => ?_
  rw [beq_iff_eq]
  exact ⟨hw.member_name_inj hc hn hm, fun heq => by rw [heq]⟩

/-- The scan through the direct bases of a class has one hit at most. -/
theorem filter_bases_eq (hw : h.WellFormed) (hc : h.class? owner = some c) {s : BaseSpecifier}
    (hs : s ∈ c.bases) {d : ClassDecl} (hd : h.class? s.base = some d) :
    (c.bases.filter fun t => (h.class? t.base).any fun e => e.name = d.name) = [s] := by
  refine filter_eq_singleton (hw.bases_nodup hc).of_map hs fun t ht => ?_
  constructor
  · intro hany
    obtain ⟨e, he, hname⟩ : ∃ e, h.class? t.base = some e ∧ e.name = d.name := by
      simpa [Option.any_eq_true] using hany
    exact List.inj_on_of_nodup_map (hw.bases_nodup hc) ht hs (hw.class_name_inj he hd hname)
  · rintro rfl
    simp [hd]

/--
**Searches by name.** The name index leads to the class that is declared with the name, the scan of
the direct bases to the base that the index leads to, and the scan of the members to the member that
has the name. Where a scan has a hit, it is the only one.
-/
theorem byName_spec (hr : h.Reachable) (hc : h.class? owner = some c) (name : String) :
    (∀ id, h.classByName name = .ok id ↔ ∃ d, h.class? id = some d ∧ d.name = name) ∧
    (∀ id, h.resolveBase owner name = .ok id ↔
      (∃ s ∈ c.bases, s.base = id) ∧ h.classByName name = .ok id) ∧
    (∀ id, h.memberByName owner name = .ok id ↔ h.MemberNamed owner name id) ∧
    (∀ id j, h.MemberNamed owner name id → h.MemberNamed owner name j → id = j) ∧
    (∀ id, h.resolveBase owner name = .ok id → ∃ s, s.base = id ∧
      (c.bases.filter fun t => (h.class? t.base).any fun d => d.name = name) = [s]) ∧
    ∀ id, h.memberByName owner name = .ok id → ∃ m, m.id = id ∧
      ((h.membersOf c).filter fun n => n.name == name) = [m] := by
  have hw := hr.wellFormed
  have hindex (id : ClassId) :
      h.classByName name = .ok id ↔ ∃ d, h.class? id = some d ∧ d.name = name :=
    classByName_eq_ok_iff.trans hw.lookup_name
  have hmember (id : MemberId) :
      h.memberByName owner name = .ok id ↔ h.MemberNamed owner name id :=
    (memberByName_eq_ok_iff hw hc).trans (memberNamed_iff hw hc).symm
  refine ⟨hindex, fun id => ?_, hmember, fun id j hid hj => ?_, fun id hok => ?_, fun id hok => ?_⟩
  · rw [hindex]
    exact resolveBase_eq_ok_iff hw hc
  · rw [← hmember] at hid hj
    exact Except.ok.inj (hid.symm.trans hj)
  · obtain ⟨⟨s, hs, rfl⟩, d, hd, rfl⟩ := (resolveBase_eq_ok_iff hw hc).1 hok
    exact ⟨s, rfl, filter_bases_eq hw hc hs hd⟩
  · obtain ⟨m, hm, rfl, rfl⟩ := (memberByName_eq_ok_iff hw hc).1 hok
    exact ⟨m, rfl, filter_membersOf_eq hw hc hm⟩

/-- A class, a base and a member, each declared twice. -/
theorem byName_spec_declared_twice :
    let h := Hierarchy.empty.run [.newClass "Base" .unknown, .newClass "Derived" .unknown,
      .newClass "Base" .unknown, .base ⟨1⟩ ⟨0⟩ .publicAccess .unknown,
      .base ⟨1⟩ ⟨0⟩ .privateAccess .unknown,
      .member ⟨0⟩ "part" (.primitive .int) .publicAccess none .unknown,
      .member ⟨1⟩ "part" (.ofClass ⟨0⟩) .publicAccess none .unknown,
      .member ⟨1⟩ "part" (.primitive .int) .publicAccess none .unknown]
    h.Reachable ∧ h.classByName "Base" = .ok ⟨0⟩ ∧ h.resolveBase ⟨1⟩ "Base" = .ok ⟨0⟩ ∧
      h.memberByName ⟨1⟩ "part" = .ok ⟨1⟩ ∧ ¬ h.MemberNamed ⟨1⟩ "part" ⟨0⟩ := by
  intro h
  have hr : h.Reachable := ⟨_, rfl⟩
  have hh : h = ⟨[⟨⟨0⟩, "Base", .unknown, .unknown, [], [⟨0⟩], []⟩,
        ⟨⟨1⟩, "Derived", .unknown, .unknown, [⟨⟨0⟩, .publicAccess, .unknown⟩], [⟨1⟩], []⟩],
      [⟨⟨0⟩, ⟨0⟩, "part", .primitive .int, .publicAccess, false, .unknown⟩,
        ⟨⟨1⟩, ⟨1⟩, "part", .ofClass ⟨0⟩, .publicAccess, true, .unknown⟩], [],
      [("Derived", ⟨1⟩), ("Base", ⟨0⟩)]⟩ := by
    unfold h
    cbv
  have hc : h.class? ⟨1⟩ = some ⟨⟨1⟩, "Derived", .unknown, .unknown,
      [⟨⟨0⟩, .publicAccess, .unknown⟩], [⟨1⟩], []⟩ := by rw [hh]; rfl
  obtain ⟨hclass, hbase, -⟩ := byName_spec hr hc "Base"
  obtain ⟨-, -, hmember, honly, -⟩ := byName_spec hr hc "part"
  have hindex := (hclass ⟨0⟩).2 ⟨_, by rw [hh]; rfl, rfl⟩
  have hpart := (hmember ⟨1⟩).2 ⟨_, by rw [hh]; rfl, rfl, rfl⟩
  refine ⟨hr, hindex, (hbase ⟨0⟩).2 ⟨⟨_, List.mem_cons_self, rfl⟩, hindex⟩, hpart, fun hother => ?_⟩
  cases honly _ _ hother ((hmember ⟨1⟩).1 hpart)

end ConstructorCheck.Hierarchy
