import ConstructorCheck.Digraph
import Mathlib.Logic.Equiv.Defs
/-!
# Chains and reachability

How chains are put together and taken apart, and that `Digraph.reaches` finds a chain of one or
more edges whenever there is one.

* `Chain.of_insert` — a chain that may use one more step uses it at most once, when no chain leads
  back from the end of that step to its start
* `Digraph.reaches_iff` — the search is sound and complete, on graphs with cycles too

The search is complete because it ends with a set of nodes that no edge leaves and that holds no
predecessor of the goal. `Closed` is that set together with what is still on the worklist.
-/

namespace ConstructorCheck

variable {α : Type} {r s : α → α → Prop} {a b c : α} {m n : Nat}

/-! ## Chains -/

namespace Chain

theorem single (h : r a b) : Chain r 1 a b := .cons h (.nil b)

theorem append (h : Chain r m a b) (h' : Chain r n b c) : Chain r (m + n) a c := by
  induction h with
  | nil => rwa [Nat.zero_add]
  | cons hab _ ih => rw [Nat.add_right_comm]; exact .cons hab (ih h')

theorem snoc (h : Chain r n a b) (hbc : r b c) : Chain r (n + 1) a c := h.append (single hbc)

theorem mono (hrs : ∀ x y, r x y → s x y) (h : Chain r n a b) : Chain s n a b := by
  induction h with
  | nil => exact .nil _
  | cons hab _ ih => exact .cons (hrs _ _ hab) ih

/-- A chain can be walked backwards. -/
theorem reverse (h : Chain r n a b) : Chain (flip r) n b a := by
  induction h with
  | nil => exact .nil _
  | cons hab _ ih => exact ih.snoc hab

/-- What turns steps into steps turns chains into chains. -/
theorem map {β : Type} {t : β → β → Prop} {f : α → β} (hf : ∀ x y, r x y → t (f x) (f y))
    (h : Chain r n a b) : Chain t n (f a) (f b) := by
  induction h with
  | nil => exact .nil _
  | cons hab _ ih => exact .cons (hf _ _ hab) ih

theorem map_equiv_iff {β : Type} {t : β → β → Prop} (e : α ≃ β)
    (he : ∀ x y, t (e x) (e y) ↔ r x y) : Chain t n (e a) (e b) ↔ Chain r n a b := by
  constructor
  · intro h
    have hback : ∀ x y, t x y → r (e.symm x) (e.symm y) := fun x y hxy => by
      rwa [← he, e.apply_symm_apply, e.apply_symm_apply]
    simpa only [e.symm_apply_apply] using h.map hback
  · exact map fun x y => (he x y).2

/-- A chain that comes back to its start can be walked any number of times. -/
theorem loop (h : Chain r n a a) : ∀ k : Nat, Chain r (k * n) a a
  | 0 => by rw [Nat.zero_mul]; exact .nil a
  | k + 1 => by rw [Nat.succ_mul]; exact (loop h k).append h

/--
A chain whose steps may also be the one step from `d` to `e` either does without it, or uses it
once: before and after it stand steps of the relation.
-/
theorem of_insert {d e : α} (hback : ∀ k, ¬ Chain r k e d)
    (h : Chain (fun x y => r x y ∨ (x = d ∧ y = e)) n a c) :
    Chain r n a c ∨ ∃ i j, Chain r i a d ∧ Chain r j e c ∧ n = i + 1 + j := by
  induction h with
  | nil => exact Or.inl (.nil _)
  | cons hab _ ih =>
    rcases hab with hab | ⟨rfl, rfl⟩
    · rcases ih with ih | ⟨i, j, hi, hj, rfl⟩
      · exact Or.inl (.cons hab ih)
      · exact Or.inr ⟨i + 1, j, .cons hab hi, hj, by omega⟩
    · rcases ih with ih | ⟨i, j, hi, -, -⟩
      · exact Or.inr ⟨0, _, .nil _, ih, by omega⟩
      · exact absurd hi (hback i)

end Chain

/-- No chain of one or more steps comes back to its start. -/
def Acyclic (r : α → α → Prop) : Prop := ∀ n a, ¬ Chain r (n + 1) a a

/-- A relation whose chains have a greatest length has no cycle. -/
theorem acyclic_of_bounded {d : Nat} (h : ∀ n a b, Chain r n a b → n ≤ d) : Acyclic r := by
  intro n a hc
  have hlong := h _ _ _ (hc.loop (d + 1))
  have : (d + 1) * 1 ≤ (d + 1) * (n + 1) := Nat.mul_le_mul_left _ (by omega)
  omega

theorem Acyclic.flip (h : Acyclic r) : Acyclic (flip r) := fun n a hc => h n a hc.reverse

/-! ## Reachability -/

namespace Digraph

variable (g : Digraph α)

/-- No expanded node leads to the goal, and all its successors are expanded or on the worklist. -/
def Closed (goal : α) (seen work : List α) : Prop :=
  ∀ x ∈ seen, ¬ g.Edge x goal ∧ ∀ y, g.Edge x y → y ∈ seen ∨ y ∈ work

variable {g}

/-- No chain leads from a closed set to the goal. -/
theorem Closed.not_chain {goal : α} {final : List α} (h : g.Closed goal final []) {n : Nat} {a : α}
    (ha : a ∈ final) : ¬ Chain g.Edge (n + 1) a goal := by
  intro hc
  induction n generalizing a with
  | zero =>
    cases hc with
    | cons hab hrest =>
      cases hrest
      exact (h a ha).1 hab
  | succ n ih =>
    cases hc with
    | cons hab hrest =>
      have hb := ((h a ha).2 _ hab).resolve_right List.not_mem_nil
      exact ih hb hrest

variable [DecidableEq α]

theorem search_sound {goal : α} {seen work : List α} (h : g.search goal seen work = true) :
    ∃ a ∈ work, ∃ n, Chain g.Edge (n + 1) a goal := by
  fun_induction g.search goal seen work with
  | case1 => cases h
  | case2 seen a rest _ ih =>
    obtain ⟨x, hx, hc⟩ := ih h
    exact ⟨x, List.mem_cons_of_mem _ hx, hc⟩
  | case3 seen a rest _ ih =>
    rcases Bool.or_eq_true_iff.1 h with hgoal | hsearch
    · exact ⟨a, List.mem_cons_self, 0, .single (show goal ∈ g.succ a by simpa using hgoal)⟩
    · obtain ⟨x, hx, n, hc⟩ := ih hsearch
      rcases List.mem_append.1 hx with hx | hx
      · exact ⟨a, List.mem_cons_self, n + 1, .cons hx hc⟩
      · exact ⟨x, List.mem_cons_of_mem _ hx, n, hc⟩

/-- A search that fails ends with a closed set that holds all it started from. -/
theorem exists_closed_of_search {goal : α} {seen work : List α}
    (h : g.search goal seen work = false) (hclosed : g.Closed goal seen work) :
    ∃ final, seen ⊆ final ∧ work ⊆ final ∧ g.Closed goal final [] := by
  fun_induction g.search goal seen work with
  | case1 seen => exact ⟨seen, fun _ hx => hx, List.nil_subset _, hclosed⟩
  | case2 seen a rest ha ih =>
    obtain ⟨final, hseen, hwork, hfinal⟩ := ih h fun x hx => by
      refine ⟨(hclosed x hx).1, fun y hy => ?_⟩
      rcases (hclosed x hx).2 y hy with hy | hy
      · exact Or.inl hy
      · rcases List.mem_cons.1 hy with rfl | hy
        · exact Or.inl ha
        · exact Or.inr hy
    exact ⟨final, hseen, List.cons_subset.2 ⟨hseen ha, hwork⟩, hfinal⟩
  | case3 seen a rest _ ih =>
    obtain ⟨hgoal, hsearch⟩ := Bool.or_eq_false_iff.1 h
    obtain ⟨final, hseen, hwork, hfinal⟩ := ih hsearch fun x hx => by
      rcases List.mem_cons.1 hx with rfl | hx
      · -- the successors of the node that is expanded now go on the worklist
        have hno : ¬ g.Edge x goal := show goal ∉ g.succ x by simpa using hgoal
        exact ⟨hno, fun y hy => Or.inr (List.mem_append.2 (Or.inl hy))⟩
      · refine ⟨(hclosed x hx).1, fun y hy => ?_⟩
        rcases (hclosed x hx).2 y hy with hy | hy
        · exact Or.inl (List.mem_cons_of_mem _ hy)
        · rcases List.mem_cons.1 hy with rfl | hy
          · exact Or.inl List.mem_cons_self
          · exact Or.inr (List.mem_append.2 (Or.inr hy))
    have hsub := List.cons_subset.1 hseen
    exact ⟨final, hsub.2, List.cons_subset.2 ⟨hsub.1, (List.append_subset.1 hwork).2⟩, hfinal⟩

/-- **Reachability is the existence of a chain of one or more edges.** -/
theorem reaches_iff {a b : α} : g.reaches a b = true ↔ ∃ n, Chain g.Edge (n + 1) a b := by
  constructor
  · intro h
    obtain ⟨x, hx, hc⟩ := search_sound h
    rwa [List.mem_singleton.1 hx] at hc
  · rintro ⟨n, hc⟩
    cases h : g.reaches a b with
    | true => rfl
    | false =>
      obtain ⟨final, -, hwork, hfinal⟩ :=
        exists_closed_of_search h fun x hx => absurd hx List.not_mem_nil
      exact absurd hc (hfinal.not_chain (hwork List.mem_cons_self))

/-- Reachability depends on the edges only. -/
theorem reaches_congr {g' : Digraph α} (hedge : ∀ x y, g.Edge x y ↔ g'.Edge x y) {a b : α} :
    g.reaches a b = g'.reaches a b := by
  have hsame : g.Edge = g'.Edge := funext fun x => funext fun y => propext (hedge x y)
  rw [Bool.eq_iff_iff, reaches_iff, reaches_iff, hsame]

end Digraph

end ConstructorCheck
