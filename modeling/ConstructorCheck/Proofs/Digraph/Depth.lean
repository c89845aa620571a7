import ConstructorCheck.Proofs.Digraph.Reachability
/-!
# Depth

On a graph without cycles the walk that measures depth finds, for each node, the length of the
longest chain that starts there.

The walk carries the depths found so far and the nodes on the way to the current one. Two facts
keep it right: the depths found so far are depths, and each node on the way leads to all nodes on
the worklist. By the second one, meeting a node on the way again would close a cycle, so that cut
is never taken.
-/

namespace ConstructorCheck

variable {α : Type} {r : α → α → Prop} {a : α} {d e : Nat}

/-- The longest chain from `a` has `d` steps. -/
structure IsDepth (r : α → α → Prop) (d : Nat) (a : α) : Prop where
  reached : ∃ b, Chain r d a b
  bound : ∀ n b, Chain r n a b → n ≤ d

theorem IsDepth.unique (h : IsDepth r d a) (h' : IsDepth r e a) : d = e := by
  obtain ⟨b, hb⟩ := h.reached
  obtain ⟨c, hc⟩ := h'.reached
  exact Nat.le_antisymm (h'.bound d b hb) (h.bound e c hc)

/-- The greatest depth of some nodes is one less than `d`; without nodes, `d` is 0. -/
structure IsDepthOver (r : α → α → Prop) (d : Nat) (work : List α) : Prop where
  bound : ∀ w ∈ work, ∃ e, IsDepth r e w ∧ e < d
  reached : d = 0 ∨ ∃ w ∈ work, ∃ e, IsDepth r e w ∧ d = e + 1

namespace IsDepthOver

theorem nil : IsDepthOver r 0 ([] : List α) := ⟨fun _ h => absurd h List.not_mem_nil, Or.inl rfl⟩

theorem cons {m : Nat} {rest : List α} (ha : IsDepth r d a) (h : IsDepthOver r m rest) :
    IsDepthOver r (max (d + 1) m) (a :: rest) where
  bound w hw := by
    rcases List.mem_cons.1 hw with rfl | hw
    · exact ⟨d, ha, by omega⟩
    · obtain ⟨e, he, hlt⟩ := h.bound w hw
      exact ⟨e, he, by omega⟩
  reached := by
    right
    by_cases hm : m ≤ d + 1
    · exact ⟨a, List.mem_cons_self, d, ha, by omega⟩
    · rcases h.reached with h0 | ⟨w, hw, e, he, rfl⟩
      · omega
      · exact ⟨w, List.mem_cons_of_mem _ hw, e, he, by omega⟩

/-- The depth of a node comes from the depths of its successors. -/
theorem isDepth {succ : List α} (hsucc : ∀ b, r a b ↔ b ∈ succ) (h : IsDepthOver r d succ) :
    IsDepth r d a where
  reached := by
    rcases h.reached with rfl | ⟨w, hw, e, he, rfl⟩
    · exact ⟨a, .nil a⟩
    · obtain ⟨b, hb⟩ := he.reached
      exact ⟨b, .cons ((hsucc w).2 hw) hb⟩
  bound n b hc := by
    cases hc with
    | nil => exact Nat.zero_le _
    | cons hab hrest =>
      obtain ⟨e, he, hlt⟩ := h.bound _ ((hsucc _).1 hab)
      have := he.bound _ _ hrest
      omega

end IsDepthOver

namespace Digraph

variable {g : Digraph α}

/-- What leads to all nodes on the worklist goes on to lead to the successors of its head. -/
theorem leads_to_succ {path rest : List α}
    (hpath : ∀ p ∈ path, ∀ w ∈ a :: rest, ∃ n, Chain g.Edge (n + 1) p w) :
    ∀ p ∈ a :: path, ∀ w ∈ g.succ a, ∃ n, Chain g.Edge (n + 1) p w := by
  intro p hp w hw
  rcases List.mem_cons.1 hp with rfl | hp
  · exact ⟨0, .single hw⟩
  · obtain ⟨n, hc⟩ := hpath p hp a List.mem_cons_self
    exact ⟨n + 1, hc.snoc hw⟩

variable [DecidableEq α]

/-- All depths found so far are depths. -/
def KnownDepths (g : Digraph α) (known : Depths α) : Prop :=
  ∀ a d, known.lookup a = some d → IsDepth g.Edge d a

theorem KnownDepths.cons {known : Depths α} (ha : IsDepth g.Edge d a) (h : g.KnownDepths known) :
    g.KnownDepths ((a, d) :: known) := by
  intro b e hb
  rw [List.lookup_cons] at hb
  split at hb
  · next heq =>
    cases hb
    rwa [eq_of_beq heq]
  · exact h b e hb

/-- **The walk finds the greatest depth of the nodes on its worklist.** -/
theorem walk_spec (hac : Acyclic g.Edge) {path : List α} {known : Depths α} {work : List α}
    (hknown : g.KnownDepths known)
    (hpath : ∀ p ∈ path, ∀ w ∈ work, ∃ n, Chain g.Edge (n + 1) p w) :
    ∃ d known', g.walk path known work = some (d, known') ∧
      IsDepthOver g.Edge d work ∧ g.KnownDepths known' := by
  fun_induction g.walk path known work with
  | case1 path known => exact ⟨0, known, rfl, .nil, hknown⟩
  | case2 path known a rest d hlookup ih =>
    obtain ⟨m, known', hwalk, hm, hknown'⟩ :=
      ih hknown fun p hp w hw => hpath p hp w (List.mem_cons_of_mem _ hw)
    exact ⟨_, known', by rw [hwalk]; rfl, .cons (hknown a d hlookup) hm, hknown'⟩
  | case3 path known a rest _ ha =>
    -- a node on the way that is met again closes a cycle
    obtain ⟨n, hc⟩ := hpath a ha a List.mem_cons_self
    exact absurd hc (hac n a)
  | case4 path known a rest _ ha hnone ih =>
    obtain ⟨d, known', hwalk, -⟩ := ih hknown (leads_to_succ hpath)
    rw [hnone] at hwalk
    cases hwalk
  | case5 path known a rest _ ha d known' hsome ih₁ ih₂ =>
    obtain ⟨d', known'', hwalk, hd, hknown'⟩ := ih₁ hknown (leads_to_succ hpath)
    rw [hsome] at hwalk
    cases hwalk
    have hda : IsDepth g.Edge d a := hd.isDepth fun _ => Iff.rfl
    obtain ⟨m, final, hrest, hm, hfinal⟩ :=
      ih₂ (hknown'.cons hda) fun p hp w hw => hpath p hp w (List.mem_cons_of_mem _ hw)
    exact ⟨_, final, by rw [hrest]; rfl, .cons hda hm, hfinal⟩

/-- The depth of a node is found, whatever depths are known before. -/
theorem depthFrom_spec (hac : Acyclic g.Edge) {known : Depths α} (hknown : g.KnownDepths known)
    (a : α) : ∃ d known', g.depthFrom known a = some (d, known') ∧
      IsDepth g.Edge d a ∧ g.KnownDepths known' := by
  unfold depthFrom
  cases hlookup : known.lookup a with
  | some d => exact ⟨d, known, rfl, hknown a d hlookup, hknown⟩
  | none =>
    have hpath : ∀ p ∈ [a], ∀ w ∈ g.succ a, ∃ n, Chain g.Edge (n + 1) p w := fun p hp w hw =>
      ⟨0, .single (by rwa [List.mem_singleton.1 hp])⟩
    obtain ⟨d, known', hwalk, hd, hknown'⟩ := walk_spec hac hknown hpath
    have hda : IsDepth g.Edge d a := hd.isDepth fun _ => Iff.rfl
    exact ⟨d, (a, d) :: known', by rw [hwalk]; rfl, hda, hknown'.cons hda⟩

/-- **The depth of a node is found**, and it is the length of the longest chain from it. -/
theorem exists_depth? (hac : Acyclic g.Edge) (a : α) :
    ∃ d, g.depth? a = some d ∧ IsDepth g.Edge d a := by
  have hnil : g.KnownDepths [] := fun _ _ h => by cases h
  obtain ⟨d, known', hfrom, hd, -⟩ := depthFrom_spec hac hnil a
  exact ⟨d, by rw [depth?, hfrom]; rfl, hd⟩

end Digraph

end ConstructorCheck
