/-!
# Finite directed graphs

A graph is a list of nodes and a successor function that is empty outside the nodes. It may have
cycles. Two questions are answered about it.

* `reaches` — whether a chain of one or more edges leads from one node to another
* `depth?` — the number of edges of the longest chain from a node, `none` when a cycle is met

`Chain` says what a chain of steps of any relation is, without either walk; the relation here is
`Edge`.

## Termination

Both walks carry a list of nodes that they do not enter again: all nodes expanded so far for
`search`, the nodes between the start and the current one for `walk`. Entering a node makes the
number of nodes outside that list smaller, and between two entries the worklist gets shorter. A
value outside the nodes has no successors, so entering it ends at once.
-/

namespace ConstructorCheck

/-- There are `n` steps of a relation, one after the other, that lead from the first to the last. -/
inductive Chain {α : Type} (r : α → α → Prop) : Nat → α → α → Prop where
  | nil (a : α) : Chain r 0 a a
  | cons {n : Nat} {a b c : α} : r a b → Chain r n b c → Chain r (n + 1) a c

/-- A finite directed graph. -/
structure Digraph (α : Type) where
  nodes : List α
  succ : α → List α
  /-- Edges start at nodes only. -/
  succ_eq_nil : ∀ a, a ∉ nodes → succ a = []

namespace Digraph

variable {α : Type} (g : Digraph α)

/-- There is an edge from `a` to `b`. -/
def Edge (a b : α) : Prop := b ∈ g.succ a

variable [DecidableEq α]

/-- The number of nodes that are not in `seen`. -/
def unseen (seen : List α) : Nat := g.nodes.countP (· ∉ seen)

theorem unseen_cons_le (a : α) (seen : List α) : g.unseen (a :: seen) ≤ g.unseen seen :=
  List.countP_mono_left fun x _ hx => by simp_all

theorem unseen_cons_lt {a : α} {seen : List α} (ha : a ∈ g.nodes) (hs : a ∉ seen) :
    g.unseen (a :: seen) < g.unseen seen := by
  obtain ⟨l, r, h⟩ := List.append_of_mem ha
  have hle (t : List α) : t.countP (· ∉ a :: seen) ≤ t.countP (· ∉ seen) :=
    List.countP_mono_left fun x _ hx => by simp_all
  have hl := hle l
  have hr := hle r
  simp only [unseen, h, List.countP_append, List.countP_cons, List.mem_cons, true_or,
    not_true_eq_false, hs, not_false_eq_true, decide_true, decide_false, if_true] at *
  simp only [Bool.false_eq_true, if_false]
  omega

/-- Entering a node leaves fewer nodes to enter, or gives nothing more to do. -/
theorem enter_lt {a : α} {seen : List α} (hs : a ∉ seen) (tail : List α) (rest : List α) :
    Prod.Lex (· < ·) (· < ·) (g.unseen (a :: seen), (g.succ a ++ tail).length)
      (g.unseen seen, (a :: (tail ++ rest)).length) := by
  by_cases ha : a ∈ g.nodes
  · exact .left _ _ (g.unseen_cons_lt ha hs)
  · have hlen : (g.succ a ++ tail).length < (a :: (tail ++ rest)).length := by
      rw [g.succ_eq_nil a ha]
      simp only [List.nil_append, List.length_cons, List.length_append]
      omega
    rcases Nat.lt_or_eq_of_le (g.unseen_cons_le a seen) with h | h
    · exact .left _ _ h
    · rw [h]; exact .right _ hlen

/-! ## Reachability -/

/--
Whether `goal` is a successor of a node on the worklist or of a node reachable from there. The
nodes in `seen` have been expanded before.
-/
def search (goal : α) (seen : List α) : List α → Bool
  | [] => false
  | a :: rest =>
    if a ∈ seen then search goal seen rest
    else goal ∈ g.succ a || search goal (a :: seen) (g.succ a ++ rest)
termination_by work => (g.unseen seen, work.length)
decreasing_by
  · exact .right _ (by simp)
  · rename_i h
    simpa using g.enter_lt h rest []

/-- Whether one or more edges lead from `a` to `b`. -/
def reaches (a b : α) : Bool := g.search b [] [a]

/-! ## Depth -/

/-- The depths found so far. -/
abbrev Depths (α : Type) := List (α × Nat)

/--
One more than the greatest depth of the listed nodes, 0 if there is none, together with all depths
found on the way. `path` holds the nodes whose depth is being found: meeting one of them again
means that there is a cycle, and then there is no answer.
-/
def walk (path : List α) (known : Depths α) : List α → Option (Nat × Depths α)
  | [] => some (0, known)
  | a :: rest =>
    match known.lookup a with
    | some d => (walk path known rest).map fun r => (max (d + 1) r.1, r.2)
    | none =>
      if a ∈ path then none
      else
        match walk (a :: path) known (g.succ a) with
        | none => none
        | some (d, known') =>
          (walk path ((a, d) :: known') rest).map fun r => (max (d + 1) r.1, r.2)
termination_by work => (g.unseen path, work.length)
decreasing_by
  · exact .right _ (by simp)
  · rename_i h
    simpa using g.enter_lt h [] rest
  · exact .right _ (by simp)

/-- The depth of a node, when some depths are known already, and all depths known then. -/
def depthFrom (known : Depths α) (a : α) : Option (Nat × Depths α) :=
  match known.lookup a with
  | some d => some (d, known)
  | none => (g.walk [a] known (g.succ a)).map fun r => (r.1, (a, r.1) :: r.2)

/-- The number of edges of the longest chain from `a`, or `none` if a cycle is met. -/
def depth? (a : α) : Option Nat := (g.depthFrom [] a).map (·.1)

end Digraph

end ConstructorCheck
