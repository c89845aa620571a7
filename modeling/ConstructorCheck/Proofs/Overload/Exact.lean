import Mathlib
import ConstructorCheck.Proofs.Overload.Arity
import ConstructorCheck.Proofs.Overload.Tied
/-!
# Exact fits

Arguments fit a candidate exactly when they are of the types of its first parameters and the other
parameters have defaults. Whatever fits exactly is better than all that is viable and does not, and
no worse than anything; so it only remains to count the exact fits.

* `FitsExactly.better` — an exact fit against another viable candidate
* `resolve_of_fitsExactly` — one exact fit wins, several are tied
* `resolve_ownTypes` — a class constructed with the parameter types of one of its constructors

Two constructors of a class differ in their parameter types, so for the types of one of them the
other exact fits are those that continue it with defaulted parameters.
-/

namespace ConstructorCheck

namespace Hierarchy

variable {h : Hierarchy} {args : List TypeRef} {cs : List Candidate} {c d : Candidate}

/-! ## Exact fits among candidates -/

theorem conversionRank_eq_exact_iff {a p : TypeRef} :
    h.conversionRank a p = some .exact ↔ a = p := by
  unfold conversionRank
  split
  · next heq => exact iff_of_true rfl heq
  · next hne =>
    refine iff_of_false (fun hrank => ?_) hne
    split at hrank
    · next p q =>
      cases p <;> cases q <;> simp [Primitive.rankTo] at hrank
    · split at hrank <;> simp at hrank
    · cases hrank

/-- The arguments have the types of the first parameters, and the call may end there. -/
structure FitsExactly (args : List TypeRef) (c : Candidate) : Prop where
  arity : acceptsArity c.params args.length = true
  isPrefix : args <+: c.params.map (·.type)

instance : Decidable (FitsExactly args c) :=
  decidable_of_iff (acceptsArity c.params args.length = true ∧ args <+: c.params.map (·.type))
    ⟨fun hfit => ⟨hfit.1, hfit.2⟩, fun hfit => ⟨hfit.arity, hfit.isPrefix⟩⟩

theorem rankAt_eq_exact_iff {i : Nat} : h.rankAt args c i = some .exact ↔
    ∃ a, args[i]? = some a ∧ (c.params.map (·.type))[i]? = some a := by
  unfold rankAt
  rw [List.getElem?_map]
  cases args[i]? with
  | none => simp
  | some a =>
    cases c.params[i]? with
    | none => simp
    | some p =>
      simp only [conversionRank_eq_exact_iff, Option.map_some, Option.some.injEq, exists_eq_left']
      exact eq_comm

/-- In an exact fit the ranks are all `exact`. -/
theorem fitsExactly_iff : FitsExactly args c ↔
    h.Viable args c ∧ ∀ i < args.length, h.rankAt args c i = some .exact := by
  have hprefix : args <+: c.params.map (·.type) ↔
      ∀ i < args.length, h.rankAt args c i = some .exact := by
    rw [List.prefix_iff_getElem?]
    refine forall₂_congr fun i hi => ?_
    rw [rankAt_eq_exact_iff, List.getElem?_eq_getElem hi]
    simp
  rw [← hprefix]
  exact ⟨fun hfit => ⟨⟨hfit.arity, fun i hi => ⟨_, hprefix.1 hfit.isPrefix i hi⟩⟩, hfit.isPrefix⟩,
    fun hfit => ⟨hfit.1.arity, hfit.2⟩⟩

theorem FitsExactly.viable (hfit : FitsExactly args c) : h.Viable args c :=
  (fitsExactly_iff.1 hfit).1

theorem FitsExactly.ranks?_eq (hfit : FitsExactly args c) :
    h.ranks? args c = some (List.replicate args.length .exact) := by
  obtain ⟨hv, hexact⟩ := (fitsExactly_iff (h := h)).1 hfit
  refine (ranks?_eq_some_iff_of_viable hv).2 ⟨List.length_replicate, fun i hi => ?_⟩
  rw [hexact i hi, List.getElem?_replicate, if_pos hi]

/-- No rank is better than `exact`. -/
theorem FitsExactly.not_better (hfit : FitsExactly args c) : ¬ h.Better args d c := by
  intro hb
  obtain ⟨i, r, s, hr, hs, hlt⟩ := hb.improves
  rw [(fitsExactly_iff.1 hfit).2 i (lt_length_of_rankAt hr)] at hs
  cases hs
  exact Nat.not_lt_zero _ hlt

/-- **An exact fit is better than a viable candidate that is none.** -/
theorem FitsExactly.better (hfit : FitsExactly args c) (hv : h.Viable args d)
    (hnot : ¬ FitsExactly args d) : h.Better args c d := by
  obtain ⟨-, hexact⟩ := (fitsExactly_iff (h := h)).1 hfit
  have hi : ∃ i < args.length, h.rankAt args d i ≠ some .exact := by
    by_contra hno
    refine hnot (fitsExactly_iff.2 ⟨hv, fun i hi => ?_⟩)
    by_contra hne
    exact hno ⟨i, hi, hne⟩
  obtain ⟨i, hi, hne⟩ := hi
  obtain ⟨s, hs⟩ := hv.converts i hi
  refine ⟨fun j r s' hr _ => ?_, i, .exact, s, hexact i hi, hs, ?_⟩
  · rw [hexact j (lt_length_of_rankAt hr)] at hr
    cases hr
    exact Nat.zero_le _
  · cases s with
    | exact => exact absurd hs hne
    | promotion => decide
    | conversion => decide

/-- **One exact fit wins, several are tied.** -/
theorem resolve_of_fitsExactly (hc : c ∈ cs) (hfit : FitsExactly args c) :
    h.resolve cs args =
      if ∃ d ∈ cs.erase c, FitsExactly args d then
        .ambiguous ((cs.filter fun d => FitsExactly args d).map (·.constructor))
      else .resolved ⟨c, List.replicate args.length .exact⟩ := by
  split
  · next hother =>
    obtain ⟨d, hd, hdfit⟩ := hother
    have hno : ¬ ∃ b, h.IsBest args b cs := by
      rintro ⟨b, hb⟩
      -- besides any candidate there is an exact fit, which it does not beat
      obtain ⟨e, he, hefit⟩ : ∃ e ∈ cs.erase b, FitsExactly args e := by
        by_cases hbc : b = c
        · exact ⟨d, hbc ▸ hd, hdfit⟩
        · exact ⟨c, (List.mem_erase_of_ne (Ne.symm hbc)).2 hc, hfit⟩
      exact hefit.not_better (hb.beats e he hefit.viable)
    obtain ⟨tied, hres⟩ := exists_ambiguous_iff.2 ⟨⟨c, hc, hfit.viable⟩, hno⟩
    obtain ⟨best, hbest, keep, hkeep, rfl⟩ := exists_undominated_of_ambiguous hres
    have hbestfit : FitsExactly args best := by
      by_contra hnot
      exact hbest.unbeaten c hc hfit.viable (hfit.better hbest.viable hnot)
    have hsame : cs.filter keep = cs.filter fun d => FitsExactly args d := by
      refine List.filter_congr fun e _ => ?_
      rw [Bool.eq_iff_iff, hkeep, decide_eq_true_eq]
      constructor
      · rintro ⟨hv, hunbeaten⟩
        by_contra hnot
        exact hunbeaten (hbestfit.better hv hnot)
      · exact fun hefit => ⟨hefit.viable, hefit.not_better⟩
    rw [hres, hsame]
  · next hno =>
    refine resolve_eq_resolved_iff.2 ⟨⟨hc, hfit.viable, fun d hd hv => ?_⟩, hfit.ranks?_eq⟩
    exact hfit.better hv fun hdfit => hno ⟨d, hd, hdfit⟩

end Hierarchy

/-! ## The types of a constructor -/

/--
The constructor `l` continues `k`: it has the parameter types of `k` and then further parameters,
which all have defaults.
-/
structure ConstructorDecl.Continues (l k : ConstructorDecl) : Prop where
  isPrefix : k.params.map (·.type) <+: l.params.map (·.type)
  longer : k.params.length < l.params.length
  defaulted : ∀ p ∈ l.params.drop k.params.length, p.defaulted = true

instance (l k : ConstructorDecl) : Decidable (l.Continues k) :=
  decidable_of_iff (k.params.map (·.type) <+: l.params.map (·.type) ∧
      k.params.length < l.params.length ∧ ∀ p ∈ l.params.drop k.params.length, p.defaulted = true)
    ⟨fun hl => ⟨hl.1, hl.2.1, hl.2.2⟩, fun hl => ⟨hl.isPrefix, hl.longer, hl.defaulted⟩⟩

namespace Hierarchy

variable {h : Hierarchy} {t : ClassId} {c : ClassDecl} {k l : ConstructorDecl}

/-- Constructors of one class with the same parameter types are one. -/
theorem eq_of_params_types_eq (hw : h.WellFormed) (hc : h.class? t = some c)
    (hk : k ∈ h.constructorsOf c) (hl : l ∈ h.constructorsOf c)
    (htypes : k.params.map (·.type) = l.params.map (·.type)) : k = l :=
  List.inj_on_of_nodup_map (hw.owned_constructors.keys_nodup (by rw [hc]; rfl)) hk hl htypes

/-- **What fits the types of a constructor exactly.** -/
theorem fitsExactly_types_iff (hw : h.WellFormed) (hc : h.class? t = some c)
    (hk : k ∈ h.constructorsOf c) (hl : l ∈ h.constructorsOf c) :
    FitsExactly (k.params.map (·.type)) (l.candidate t) ↔ l = k ∨ l.Continues k := by
  obtain ⟨id, -, hid⟩ := List.mem_filterMap.1 hl
  have harity : acceptsArity l.params (k.params.map (·.type)).length = true ↔
      k.params.length ≤ l.params.length ∧
        ∀ p ∈ l.params.drop k.params.length, p.defaulted = true := by
    rw [List.length_map]
    exact acceptsArity_iff (hw.defaults_trail hid)
  constructor
  · intro hfit
    obtain ⟨hle, hdefaulted⟩ := harity.1 hfit.arity
    rcases Nat.eq_or_lt_of_le hle with heq | hlt
    · refine .inl (eq_of_params_types_eq hw hc hl hk (hfit.isPrefix.eq_of_length ?_).symm)
      rw [List.length_map, heq, List.length_map]
      rfl
    · exact .inr ⟨hfit.isPrefix, hlt, hdefaulted⟩
  · rintro (rfl | hl)
    · exact ⟨harity.2 (by simp), List.prefix_refl _⟩
    · exact ⟨harity.2 ⟨hl.longer.le, hl.defaulted⟩, hl.isPrefix⟩

/-- A class that declares constructors has these as candidates. -/
theorem candidatesOf_eq_map (hc : h.class? t = some c) (hk : k ∈ h.constructorsOf c) :
    h.candidatesOf t = .ok ((h.constructorsOf c).map (·.candidate t)) := by
  have hne : (h.constructorsOf c).isEmpty = false :=
    List.isEmpty_eq_false_iff_exists_mem.2 ⟨k, hk⟩
  rw [candidatesOf, ownConstructors, getClass_eq_ok_iff.2 hc]
  simp only [Except.map, hne, Bool.false_eq_true, if_false]

/--
**Arguments of the parameter types of a constructor** choose that constructor, with exact ranks. But
if other constructors of the class continue it with defaulted parameters, the call is ambiguous
between it and those, in the order of declaration.
-/
theorem resolve_ownTypes (hr : h.Reachable) (hc : h.class? t = some c)
    (hk : k ∈ h.constructorsOf c) :
    ∃ cs, h.candidatesOf t = .ok cs ∧ h.resolve cs (k.params.map (·.type)) =
      if ∃ l ∈ h.constructorsOf c, l.Continues k then
        .ambiguous (((h.constructorsOf c).filter fun l => l = k ∨ l.Continues k).map
          fun l => .declared l.id)
      else .resolved ⟨k.candidate t, List.replicate k.params.length .exact⟩ := by
  have hw := hr.wellFormed
  have hcs := candidatesOf_eq_map hc hk
  have hnodup := (constructors_nodup_of_candidatesOf hw hcs).of_map
  have hfit := (fitsExactly_types_iff hw hc hk hk).2 (.inl rfl)
  refine ⟨_, hcs, ?_⟩
  rw [resolve_of_fitsExactly (List.mem_map_of_mem hk) hfit, List.length_map]
  congr 1
  · refine propext ⟨?_, ?_⟩
    · rintro ⟨d, hd, hdfit⟩
      obtain ⟨hne, hmem⟩ := hnodup.mem_erase_iff.1 hd
      obtain ⟨l, hl, rfl⟩ := List.mem_map.1 hmem
      refine ⟨l, hl, ((fitsExactly_types_iff hw hc hk hl).1 hdfit).resolve_left ?_⟩
      rintro rfl
      exact hne rfl
    · rintro ⟨l, hl, hcont⟩
      refine ⟨l.candidate t, hnodup.mem_erase_iff.2 ⟨fun heq => ?_, List.mem_map_of_mem hl⟩,
        (fitsExactly_types_iff hw hc hk hl).2 (.inr hcont)⟩
      have hparams : l.params = k.params := congrArg Candidate.params heq
      exact absurd hcont.longer (by rw [hparams]; exact lt_irrefl _)
  · have hfilter : (h.constructorsOf c).filter
          ((fun d => FitsExactly (k.params.map (·.type)) d) ∘ (·.candidate t)) =
        (h.constructorsOf c).filter fun l => l = k ∨ l.Continues k :=
      List.filter_congr fun l hl => decide_eq_decide.2 (fitsExactly_types_iff hw hc hk hl)
    rw [List.filter_map, hfilter, List.map_map]
    rfl

/-- Of three constructors the second one continues the first with a default. -/
theorem resolve_ownTypes_defaulted :
    let h := Hierarchy.empty.run [.newClass "Target" .unknown,
      .constructor ⟨0⟩ [⟨.primitive .int, false⟩] .publicAccess .unknown,
      .constructor ⟨0⟩ [⟨.primitive .int, false⟩, ⟨.primitive .double, true⟩] .publicAccess .unknown,
      .constructor ⟨0⟩ [⟨.primitive .double, false⟩] .publicAccess .unknown]
    h.Reachable ∧ ∃ cs, h.candidatesOf ⟨0⟩ = .ok cs ∧
      h.resolve cs [.primitive .int] = .ambiguous [.declared ⟨0⟩, .declared ⟨1⟩] ∧
      h.resolve cs [.primitive .double] = .resolved
        ⟨⟨.declared ⟨2⟩, ⟨0⟩, .publicAccess, [⟨.primitive .double, false⟩]⟩, [.exact]⟩ := by
  intro h
  have hr : h.Reachable := ⟨_, rfl⟩
  have hh : h = ⟨[⟨⟨0⟩, "Target", .unknown, .unknown, [], [], [⟨0⟩, ⟨1⟩, ⟨2⟩]⟩], [],
      [⟨⟨0⟩, ⟨0⟩, [⟨.primitive .int, false⟩], .publicAccess, .unknown⟩,
        ⟨⟨1⟩, ⟨0⟩, [⟨.primitive .int, false⟩, ⟨.primitive .double, true⟩], .publicAccess, .unknown⟩,
        ⟨⟨2⟩, ⟨0⟩, [⟨.primitive .double, false⟩], .publicAccess, .unknown⟩],
      [("Target", ⟨0⟩)]⟩ := by
    unfold h
    cbv
  rw [hh] at hr ⊢
  obtain ⟨cs, hcs, hint⟩ :=
    resolve_ownTypes hr (t := ⟨0⟩) rfl (List.mem_cons_self (l := [_, _]))
  obtain ⟨cs', hcs', hdouble⟩ := resolve_ownTypes hr (t := ⟨0⟩) rfl
    (List.mem_cons_of_mem _ (List.mem_cons_of_mem _ (List.mem_cons_self (l := []))))
  cases hcs.symm.trans hcs'
  rw [if_pos (by decide)] at hint
  rw [if_neg (by decide)] at hdouble
  exact ⟨hr, cs, hcs, hint, hdouble⟩

end Hierarchy

end ConstructorCheck
