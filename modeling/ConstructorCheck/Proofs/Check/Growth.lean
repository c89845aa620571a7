import Mathlib
import ConstructorCheck.Proofs.Check.Targets
import ConstructorCheck.Proofs.Hierarchy.Consistent
import ConstructorCheck.Proofs.Hierarchy.Extension
/-!
# Verdicts in a growing hierarchy

A declaration adds a record at the end of a table, and one entry or another span to one class. All
other records stay as they are. A site may name classes that are not declared yet, as types of its
arguments; declaring them later does not change its verdict, as a new class has no bases.

* `SameBases` — every class has the same bases in both hierarchies, so both rank and resolve alike
* `Spares` — the declarations that leave the verdict on a site alone
* `checkSite_run` — no list of such declarations changes the verdict
* `declare_frame` — what stays when a declaration is accepted

A new base can change a verdict anywhere: it makes arguments convertible and opens protected
constructors. A new constructor only matters where its class is constructed.
-/

namespace ConstructorCheck

/-! ## Records that stay -/

/-- The record of the class `id` after a declaration that is accepted in `h`. -/
def Declaration.onRecord (h : Hierarchy) (id : ClassId) (c : ClassDecl) : Declaration → ClassDecl
  | .newClass .. => c
  | .implicitDefaultPoint j point => if id = j then { c with implicitDefaultPoint := point } else c
  | .base derived b access span =>
    if id = derived then { c with bases := c.bases ++ [⟨b, access, span⟩] } else c
  | .member owner .. =>
    if id = owner then { c with members := c.members ++ [⟨h.members.length⟩] } else c
  | .constructor owner .. =>
    if id = owner then { c with constructors := c.constructors ++ [⟨h.constructors.length⟩] } else c

namespace Hierarchy

variable {h h' : Hierarchy} {d : Declaration} {r : Declared} {s : Site} {t : ClassId}

namespace Accepts

/-- Classes keep their ids, and what they contain but for one entry or span. -/
theorem class? (ha : h.Accepts d r h') {id : ClassId} {c : ClassDecl} (hc : h.class? id = some c) :
    h'.class? id = some (d.onRecord h id c) := by
  cases ha with
  | newClass =>
    rw [class?_withClass, if_neg, hc]
    · rfl
    · rintro rfl
      rw [class?_eq_none_iff.2 (Nat.le_refl _)] at hc
      cases hc
  | @implicitDefaultPoint j =>
    rw [class?_withPoint, hc, Declaration.onRecord]
    split <;> rfl
  | @base derived =>
    rw [class?_withBase, hc, Declaration.onRecord]
    split <;> rfl
  | @member owner =>
    rw [class?_withMember, hc, Declaration.onRecord]
    split <;> rfl
  | @constructor owner =>
    rw [class?_withConstructor, hc, Declaration.onRecord]
    split <;> rfl

theorem member? (ha : h.Accepts d r h') {id : MemberId} {m : MemberDecl}
    (hm : h.member? id = some m) : h'.member? id = some m := by
  cases ha with
  | member =>
    rw [member?_withMember, if_neg, hm]
    rintro rfl
    rw [Hierarchy.member?, List.getElem?_eq_none (Nat.le_refl _)] at hm
    cases hm
  | _ => exact hm

theorem constructor? (ha : h.Accepts d r h') {id : ConstructorId} {k : ConstructorDecl}
    (hk : h.constructor? id = some k) : h'.constructor? id = some k := by
  cases ha with
  | constructor =>
    rw [constructor?_withConstructor, if_neg, hk]
    rintro rfl
    rw [Hierarchy.constructor?, List.getElem?_eq_none (Nat.le_refl _)] at hk
    cases hk
  | _ => exact hk

theorem classByName (ha : h.Accepts d r h') {name : String} {id : ClassId}
    (hname : h.classByName name = .ok id) : h'.classByName name = .ok id := by
  rw [classByName_eq_ok_iff] at hname ⊢
  cases ha with
  | @newClass new _ hnew =>
    rw [names_withClass, List.lookup_cons, beq_false_of_ne, hname]
    rintro rfl
    rw [hnew] at hname
    cases hname
  | _ => exact hname

end Accepts

/-! ## The same bases -/

/-- No class has other bases in `h'` than in `h`. -/
def SameBases (h h' : Hierarchy) : Prop := ∀ keep id, h'.basesWhere keep id = h.basesWhere keep id

theorem basesWhere_eq (keep : BaseSpecifier → Bool) (id : ClassId) : h.basesWhere keep id =
    ((((h.class? id).map (·.bases)).getD []).filter keep).map (·.base) := by
  unfold basesWhere
  cases h.class? id <;> rfl

/-- A new class is without bases, as it was when it was not there. -/
theorem Accepts.sameBases (ha : h.Accepts d r h') (hd : d.edge? = none) : h.SameBases h' := by
  intro keep id
  suffices hbases : ((h'.class? id).map (·.bases)).getD [] =
      ((h.class? id).map (·.bases)).getD [] by rw [basesWhere_eq, basesWhere_eq, hbases]
  cases ha with
  | newClass =>
    rw [map_class?_withClass _ _ fun _ _ _ => rfl]
    split
    · next hid =>
      rw [hid, class?_eq_none_iff.2 (Nat.le_refl _)]
      rfl
    · rfl
  | implicitDefaultPoint => rw [map_class?_withPoint _ _ fun _ => rfl]
  | base => cases hd
  | member => rw [map_class?_withMember _ _ fun _ => rfl]
  | constructor => rw [map_class?_withConstructor _ _ fun _ => rfl]

namespace SameBases

theorem reaches (hb : h.SameBases h') (keep : BaseSpecifier → Bool) (a b : ClassId) :
    (h'.baseGraph keep).reaches a b = (h.baseGraph keep).reaches a b := by
  refine Digraph.reaches_congr fun x y => ?_
  show y ∈ h'.basesWhere keep x ↔ y ∈ h.basesWhere keep x
  rw [hb keep x]

theorem conversionRank (hb : h.SameBases h') : h'.conversionRank = h.conversionRank := by
  funext arg param
  unfold Hierarchy.conversionRank isAccessibleBase
  simp only [hb.reaches]

theorem resolve (hb : h.SameBases h') : h'.resolve = h.resolve := by
  have hranks : h'.ranks? = h.ranks? := by
    funext args c
    rw [Hierarchy.ranks?, Hierarchy.ranks?, hb.conversionRank]
  funext cs args
  rw [Hierarchy.resolve, Hierarchy.resolve, viable, viable, hranks]

theorem accessFinding (hb : h.SameBases h') : h'.accessFinding = h.accessFinding := by
  have haccess : h'.isAccessible = h.isAccessible := by
    funext access declaring calling
    cases access with
    | publicAccess => rfl
    | protectedAccess => rw [isAccessible, isAccessible, isDerivedFrom, isDerivedFrom, hb.reaches]
    | privateAccess => rfl
  funext s c
  rw [Hierarchy.accessFinding, Hierarchy.accessFinding, haccess]

end SameBases

/-! ## The verdict on a site -/

theorem bases_subset_onRecord (id : ClassId) (c : ClassDecl) (d : Declaration) :
    c.bases ⊆ (d.onRecord h id c).bases := by
  cases d with
  | base derived b access span =>
    rw [Declaration.onRecord]
    split
    · exact List.subset_append_left ..
    · exact List.Subset.refl _
  | newClass | implicitDefaultPoint | member | constructor =>
    simp only [Declaration.onRecord, apply_ite ClassDecl.bases, ite_self, List.Subset.refl]

/-- A site that fits a hierarchy fits it after every declaration, with the same target. -/
theorem Accepts.targetOf (ha : h.Accepts d r h') (hw : h.WellFormed) (ht : h.targetOf s = .ok t) :
    h'.targetOf s = .ok t := by
  obtain ⟨c, hc, ht⟩ := bind_eq_ok_iff.1 ht
  rw [mapError_eq_ok_iff, getClass_eq_ok_iff] at hc
  split at ht
  · next id hsubject =>
    split at ht
    · next hany =>
      cases ht
      obtain ⟨b, hb, hid⟩ := List.any_eq_true.1 hany
      exact targetOf_eq_ok_of_base (ha.class? hc) hsubject
        ⟨b, bases_subset_onRecord _ _ d hb, of_decide_eq_true hid⟩
    · cases ht
  · next id hsubject =>
    obtain ⟨m, hm, hmember⟩ := bind_eq_ok_iff.1 ht
    rw [mapError_eq_ok_iff, getMember_eq_ok_iff] at hm
    have hid : m.id = id := hw.owned_members.id_eq hm
    subst hid
    split at hmember
    · cases hmember
    · next howner =>
      split at hmember
      · next htype =>
        cases hmember
        exact targetOf_eq_ok_of_member (ha.class? hc) hsubject (ha.member? hm)
          (not_not.1 howner) htype
      · cases hmember

/-- The declarations after which the verdict on a site is what it was. -/
def Spares (h : Hierarchy) (s : Site) : Declaration → Prop
  | .base .. => False
  | .constructor owner .. => h.targetOf s ≠ .ok owner
  | _ => True

/-- A class has other candidates only after a declaration of one of its constructors. -/
theorem Accepts.candidatesOf (ha : h.Accepts d r h') (hw : h.WellFormed) {c : ClassDecl}
    (hc : h.class? t = some c) (hd : ∀ k, d.constructor? = some k → k.owner ≠ t) :
    h'.candidatesOf t = h.candidatesOf t := by
  have hlist : (d.onRecord h t c).constructors = c.constructors := by
    cases d with
    | constructor owner => exact congrArg _ (if_neg fun heq => hd _ rfl heq.symm)
    | newClass | implicitDefaultPoint | base | member =>
      simp only [Declaration.onRecord, apply_ite ClassDecl.constructors, ite_self]
  have hrecords : h'.constructorsOf (d.onRecord h t c) = h.constructorsOf c := by
    rw [constructorsOf, constructorsOf, hlist]
    refine List.filterMap_congr fun id hid => ?_
    obtain ⟨k, hk, -⟩ := (hw.owned_constructors.mem_iff (by rw [hc]; rfl) id).1 hid
    rw [hk, ha.constructor? hk]
  rw [Hierarchy.candidatesOf, Hierarchy.candidatesOf, ownConstructors_eq_ok (ha.class? hc),
    ownConstructors_eq_ok hc, hrecords]

theorem Accepts.spares (ha : h.Accepts d r h') (hw : h.WellFormed) (ht : h.targetOf s = .ok t)
    {e : Declaration} (he : h.Spares s e) : h'.Spares s e := by
  cases e with
  | base => exact he
  | constructor owner =>
    intro ht'
    rw [ha.targetOf hw ht] at ht'
    exact he (ht.trans ht')
  | newClass | implicitDefaultPoint | member => trivial

theorem exists_target_of_checkSite {v : Option Finding} (hv : h.checkSite s = .ok v) :
    ∃ t, h.targetOf s = .ok t := by
  obtain ⟨g, hgather, -⟩ := bind_eq_ok_iff.1 hv
  obtain ⟨t, ht, -⟩ := bind_eq_ok_iff.1 hgather
  exact ⟨t, ht⟩

/-- **One declaration that spares a site leaves its verdict as it is.** -/
theorem Accepts.checkSite (ha : h.Accepts d r h') (hw : h.WellFormed) {v : Option Finding}
    (hv : h.checkSite s = .ok v) (hd : h.Spares s d) : h'.checkSite s = .ok v := by
  obtain ⟨t, ht⟩ := exists_target_of_checkSite hv
  obtain ⟨c, hc⟩ := targetOf_declared hw ht
  have hedge : d.edge? = none := by
    cases d with
    | base => exact hd.elim
    | newClass | implicitDefaultPoint | member | constructor => rfl
  have howner (k : ConstructorDecl) (hk : d.constructor? = some k) : k.owner ≠ t := by
    cases d with
    | constructor =>
      cases hk
      rintro rfl
      exact hd ht
    | newClass | implicitDefaultPoint | base | member => cases hk
  have hb := ha.sameBases hedge
  have hgather : h'.gather s = h.gather s := by
    rw [gather, gather, ht, ha.targetOf hw ht]
    show ((h'.candidatesOf t).mapError _ >>= _) = ((h.candidatesOf t).mapError _ >>= _)
    rw [ha.candidatesOf hw hc howner]
  rw [Hierarchy.checkSite, hgather, hb.resolve, hb.accessFinding]
  exact hv

/-- **No list of declarations that spare a site changes its verdict.** Some may be refused. -/
theorem checkSite_run (hr : h.Reachable) {v : Option Finding} (hv : h.checkSite s = .ok v)
    {ds : List Declaration} (hds : ∀ d ∈ ds, h.Spares s d) : (h.run ds).checkSite s = .ok v := by
  induction ds generalizing h with
  | nil => exact hv
  | cons d ds ih =>
    obtain ⟨hd, hds⟩ := List.forall_mem_cons.1 hds
    show ((h.step d).run ds).checkSite s = .ok v
    obtain ⟨t, ht⟩ := exists_target_of_checkSite hv
    refine ih (hr.step d) ?_ ?_
    · unfold step
      split
      · next r hok => exact (declare_eq_ok_iff.1 hok).checkSite hr.wellFormed hv hd
      · exact hv
    · intro e he
      unfold step
      split
      · next r hok => exact (declare_eq_ok_iff.1 hok).spares hr.wellFormed ht (hds e he)
      · exact hds e he

/--
**What stays when a declaration is accepted.** The verdict on a site stays unless the declaration is
a new base, or a constructor of the class that is constructed there. Every record keeps its id and
what it contains, but for one new entry of one list or one span of the class that the declaration
names; and names lead where they led.
-/
theorem declare_frame (hr : h.Reachable) (hok : h.declare d = .ok (r, h')) :
    (∀ s v, h.checkSite s = .ok v → h.Spares s d → h'.checkSite s = .ok v) ∧
    (∀ id c, h.class? id = some c → h'.class? id = some (d.onRecord h id c)) ∧
    (∀ id m, h.member? id = some m → h'.member? id = some m) ∧
    (∀ id k, h.constructor? id = some k → h'.constructor? id = some k) ∧
    ∀ name id, h.classByName name = .ok id → h'.classByName name = .ok id := by
  have ha := declare_eq_ok_iff.1 hok
  exact ⟨fun s v hv hd => ha.checkSite hr.wellFormed hv hd, fun _ _ => ha.class?,
    fun _ _ => ha.member?, fun _ _ => ha.constructor?, fun _ _ => ha.classByName⟩

/-- An argument of a class that is declared only after the site was checked. -/
theorem declare_frame_late_class :
    let h := Hierarchy.empty.run [.newClass "Part" .unknown,
      .constructor ⟨0⟩ [⟨.ofClass ⟨0⟩, false⟩] .publicAccess .unknown, .newClass "Whole" .unknown,
      .base ⟨1⟩ ⟨0⟩ .publicAccess .unknown]
    let s : Site := ⟨⟨1⟩, .base ⟨0⟩, some [.ofClass ⟨2⟩], .unknown⟩
    let v : Option Finding := some (.atSite .noViableConstructor s ⟨0⟩ [.declared ⟨0⟩])
    h.Reachable ∧ h.class? ⟨2⟩ = none ∧ h.checkSite s = .ok v ∧
      ∃ r h', h.declare (.newClass "Late" .unknown) = .ok (r, h') ∧ (h'.class? ⟨2⟩).isSome = true ∧
        h'.checkSite s = .ok v ∧ ∀ c, h.class? ⟨1⟩ = some c → h'.class? ⟨1⟩ = some c := by
  intro h s v
  have hr : h.Reachable := ⟨_, rfl⟩
  have hnone : h.class? ⟨2⟩ = none := by
    unfold h
    cbv
  have hv : h.checkSite s = .ok v := by
    unfold h s v
    cbv
  have hname : h.names.lookup "Late" = none := by
    unfold h
    cbv
  have hok : h.declare (.newClass "Late" .unknown) = .ok (_, _) :=
    declare_eq_ok_iff.2 (.newClass hname)
  obtain ⟨hcheck, hclass, -⟩ := declare_frame hr hok
  refine ⟨hr, hnone, hv, _, _, hok, ?_, hcheck s v hv trivial, fun c => hclass ⟨1⟩ c⟩
  rw [class?_withClass, if_pos]
  · rfl
  · unfold h
    cbv

end Hierarchy

end ConstructorCheck
