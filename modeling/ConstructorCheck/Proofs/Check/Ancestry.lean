import Mathlib
import ConstructorCheck.Check.Verdict
import ConstructorCheck.Proofs.Hierarchy.BaseChains
/-!
# Derivation as an order

Derivation and accessible bases are each found by a search of the base graph. Both are strict
orders, on undeclared ids too, because a chain of bases never comes back to its start.

* `isAccessibleBase_iff` — an accessible base is at the end of a chain of public bases
* `isPartialOrder_conversion` — a class converts to itself and to its accessible bases
* `derivation_spec` — both relations, with what conversions and protected access make of them
-/

namespace ConstructorCheck

/-- Without cycles, to be joined by one or more steps is a strict order. -/
theorem Acyclic.isStrictOrder {α : Type} {r : α → α → Prop} (hr : Acyclic r) :
    IsStrictOrder α fun a b => ∃ n, Chain r (n + 1) a b where
  irrefl a := fun ⟨n, hc⟩ => hr n a hc
  trans a b c := by
    rintro ⟨m, hab⟩ ⟨n, hbc⟩
    exact ⟨m + 1 + n, hab.append hbc⟩

namespace Hierarchy

variable {h : Hierarchy} {a b : ClassId}

/-- The class `a` lists `b` as a public direct base. -/
def PublicBase (h : Hierarchy) (a b : ClassId) : Prop :=
  ∃ c, h.class? a = some c ∧ ∃ s ∈ c.bases, s.base = b ∧ s.access = .publicAccess

theorem PublicBase.directBase (hab : h.PublicBase a b) : h.DirectBase a b := by
  obtain ⟨c, hc, s, hs, hbase, -⟩ := hab
  exact ⟨c, hc, s, hs, hbase⟩

theorem publicGraph_edge_iff :
    (h.baseGraph fun s => s.access = .publicAccess).Edge a b ↔ h.PublicBase a b := by
  show b ∈ h.basesWhere _ a ↔ _
  unfold basesWhere
  rw [PublicBase]
  cases hc : h.class? a with
  | none => simp
  | some c => simp [and_assoc, and_left_comm, and_comm]

theorem publicGraph_edge_eq :
    (h.baseGraph fun s => s.access = .publicAccess).Edge = h.PublicBase :=
  funext fun _ => funext fun _ => propext publicGraph_edge_iff

/-- **An accessible base is at the end of a chain of public bases.** -/
theorem isAccessibleBase_iff :
    h.isAccessibleBase a b = true ↔ ∃ n, Chain h.PublicBase (n + 1) a b := by
  unfold isAccessibleBase
  rw [Digraph.reaches_iff, publicGraph_edge_eq]

theorem isDerivedFrom_of_isAccessibleBase (hab : h.isAccessibleBase a b = true) :
    h.isDerivedFrom a b = true := by
  obtain ⟨n, hc⟩ := isAccessibleBase_iff.1 hab
  exact isDerivedFrom_iff.2 ⟨n, hc.mono fun _ _ => PublicBase.directBase⟩

theorem Shallow.publicBase_acyclic (hs : h.Shallow) : Acyclic h.PublicBase := fun n a hc =>
  hs.acyclic n a (hc.mono fun _ _ => PublicBase.directBase)

/-- A class converts to itself and to its accessible bases. -/
theorem conversion_iff :
    (h.conversionRank (.ofClass a) (.ofClass b)).isSome = true ↔
      a = b ∨ h.isAccessibleBase a b = true := by
  unfold conversionRank
  by_cases hab : a = b
  · simp [hab]
  · cases hbase : h.isAccessibleBase a b <;> simp [hab, hbase]

/-- **Conversion of class arguments is a partial order.** -/
theorem isPartialOrder_conversion
    (hstrict : IsStrictOrder ClassId fun a b => h.isAccessibleBase a b = true) :
    IsPartialOrder ClassId fun a b =>
      (h.conversionRank (.ofClass a) (.ofClass b)).isSome = true where
  refl a := conversion_iff.2 (Or.inl rfl)
  trans a b c hab hbc := by
    rcases conversion_iff.1 hab with rfl | hab
    · exact hbc
    · rcases conversion_iff.1 hbc with rfl | hbc
      · exact conversion_iff.2 (Or.inr hab)
      · exact conversion_iff.2 (Or.inr (hstrict.trans a b c hab hbc))
  antisymm a b hab hba := by
    rcases conversion_iff.1 hab with hab | hab
    · exact hab
    · rcases conversion_iff.1 hba with hba | hba
      · exact hba.symm
      · exact absurd (hstrict.trans a b a hab hba) (hstrict.irrefl a)

/-- A chain without edges joins a class to itself. -/
theorem isAccessible_protected_iff {declaring calling : ClassId} :
    h.isAccessible .protectedAccess declaring calling = true ↔
      ∃ n, Chain h.DirectBase n calling declaring := by
  simp only [isAccessible, Bool.or_eq_true, decide_eq_true_eq, isDerivedFrom_iff]
  constructor
  · rintro (rfl | ⟨n, hc⟩)
    · exact ⟨0, .nil calling⟩
    · exact ⟨n + 1, hc⟩
  · rintro ⟨n, hc⟩
    cases n with
    | zero =>
      cases hc
      exact Or.inl rfl
    | succ n => exact Or.inr ⟨n, hc⟩

/--
**Derivation in a reachable hierarchy.** A class derives from another when a chain of one or more
bases leads there, and the other is an accessible base when all of them are public. Both relations
are strict orders, the second one within the first. So class arguments are partially ordered by
conversion, and protected access reaches down every chain of bases, of whatever access.
-/
theorem derivation_spec (hr : h.Reachable) :
    (∀ a b, h.isDerivedFrom a b = true ↔ ∃ n, Chain h.DirectBase (n + 1) a b) ∧
    (∀ a b, h.isAccessibleBase a b = true ↔ ∃ n, Chain h.PublicBase (n + 1) a b) ∧
    IsStrictOrder ClassId (fun a b => h.isDerivedFrom a b = true) ∧
    Std.Asymm (fun a b => h.isDerivedFrom a b = true) ∧
    IsStrictOrder ClassId (fun a b => h.isAccessibleBase a b = true) ∧
    Std.Asymm (fun a b => h.isAccessibleBase a b = true) ∧
    (∀ a b, h.isAccessibleBase a b = true → h.isDerivedFrom a b = true) ∧
    IsPartialOrder ClassId
      (fun a b => (h.conversionRank (.ofClass a) (.ofClass b)).isSome = true) ∧
    ∀ declaring calling, h.isAccessible .protectedAccess declaring calling = true ↔
      ∃ n, Chain h.DirectBase n calling declaring := by
  have hderived : IsStrictOrder ClassId (fun a b => h.isDerivedFrom a b = true) := by
    simp only [isDerivedFrom_iff]
    exact hr.shallow.acyclic.isStrictOrder
  have haccessible : IsStrictOrder ClassId (fun a b => h.isAccessibleBase a b = true) := by
    simp only [isAccessibleBase_iff]
    exact hr.shallow.publicBase_acyclic.isStrictOrder
  have hasymm {r : ClassId → ClassId → Prop} (hstrict : IsStrictOrder ClassId r) : Std.Asymm r :=
    ⟨fun a b hab hba => hstrict.irrefl a (hstrict.trans a b a hab hba)⟩
  exact ⟨fun _ _ => isDerivedFrom_iff, fun _ _ => isAccessibleBase_iff, hderived, hasymm hderived,
    haccessible, hasymm haccessible, fun _ _ => isDerivedFrom_of_isAccessibleBase,
    isPartialOrder_conversion haccessible, fun _ _ => isAccessible_protected_iff⟩

/-- A chain of a public and a private base: it derives, gives protected access, and converts not. -/
theorem derivation_spec_private_link :
    let h := Hierarchy.empty.run [.newClass "Top" .unknown, .newClass "Middle" .unknown,
      .newClass "Bottom" .unknown, .base ⟨1⟩ ⟨0⟩ .privateAccess .unknown,
      .base ⟨2⟩ ⟨1⟩ .publicAccess .unknown]
    h.Reachable ∧ h.isDerivedFrom ⟨2⟩ ⟨0⟩ = true ∧ h.isDerivedFrom ⟨0⟩ ⟨2⟩ = false ∧
      h.isAccessibleBase ⟨2⟩ ⟨1⟩ = true ∧ h.isAccessibleBase ⟨2⟩ ⟨0⟩ = false ∧
      h.isAccessible .protectedAccess ⟨0⟩ ⟨2⟩ = true := by
  intro h
  have hr : h.Reachable := ⟨_, rfl⟩
  have hmiddle : h.class? ⟨1⟩ = some ⟨⟨1⟩, "Middle", .unknown, .unknown,
      [⟨⟨0⟩, .privateAccess, .unknown⟩], [], []⟩ := by
    unfold h
    cbv
  have hbottom : h.class? ⟨2⟩ = some ⟨⟨2⟩, "Bottom", .unknown, .unknown,
      [⟨⟨1⟩, .publicAccess, .unknown⟩], [], []⟩ := by
    unfold h
    cbv
  obtain ⟨hderived, haccessible, -, hasymm, -, -, -, -, hprotected⟩ := derivation_spec hr
  have hfirst : h.PublicBase ⟨2⟩ ⟨1⟩ := ⟨_, hbottom, _, List.mem_singleton_self _, rfl, rfl⟩
  have hsecond : h.DirectBase ⟨1⟩ ⟨0⟩ := ⟨_, hmiddle, _, List.mem_singleton_self _, rfl⟩
  have hchain : Chain h.DirectBase 2 ⟨2⟩ ⟨0⟩ := .cons hfirst.directBase (.cons hsecond (.nil _))
  have hup := (hderived ⟨2⟩ ⟨0⟩).2 ⟨1, hchain⟩
  refine ⟨hr, hup, Bool.eq_false_iff.2 (hasymm.asymm _ _ hup),
    (haccessible ⟨2⟩ ⟨1⟩).2 ⟨0, .cons hfirst (.nil _)⟩, Bool.eq_false_iff.2 fun hpublic => ?_,
    (hprotected ⟨0⟩ ⟨2⟩).2 ⟨2, hchain⟩⟩
  -- a public chain from the bottom can only go to the middle, which lists no public base
  obtain ⟨n, _ | ⟨⟨c, hc, s, hs, rfl, -⟩, hrest⟩⟩ := (haccessible ⟨2⟩ ⟨0⟩).1 hpublic
  cases hbottom.symm.trans hc
  cases List.mem_singleton.1 hs
  obtain _ | ⟨⟨c, hc, s, hs, -, hs_public⟩, -⟩ := hrest
  cases hmiddle.symm.trans hc
  cases List.mem_singleton.1 hs
  cases hs_public

end Hierarchy

end ConstructorCheck
