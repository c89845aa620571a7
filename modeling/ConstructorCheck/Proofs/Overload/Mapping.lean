import ConstructorCheck.Overload.Resolution
/-!
# Overload resolution among other candidates

Resolution chooses by the ranks of the candidates alone. When candidates are replaced by others that
have the same ranks, perhaps for other arguments in another hierarchy, the replacement of the winner
wins.

* `resolve_map` — what a call chooses among the replaced candidates
-/

namespace ConstructorCheck

variable (f : Candidate → Candidate) (g : ConstructorRef → ConstructorRef)

/-- Replaces a candidate; the ranks stay. -/
def Ranked.map (e : Ranked) : Ranked := { e with candidate := f e.candidate }

/-- Replaces the candidates, and what stands for them where only their constructors are named. -/
def Resolution.map : Resolution → Resolution
  | .resolved winner => .resolved (winner.map f)
  | .ambiguous tied => .ambiguous (tied.map g)
  | .noMatch => .noMatch

theorem survivor_map (first : Ranked) (rest : List Ranked) :
    survivor (first.map f) (rest.map (Ranked.map f)) = (survivor first rest).map f := by
  unfold survivor
  rw [List.foldl_map]
  refine List.foldl_hom (Ranked.map f) fun best e => ?_
  rw [apply_ite (Ranked.map f)]
  rfl

theorem unbeatenBy_map (best : Ranked) (entries : List Ranked) :
    unbeatenBy (best.map f) (entries.map (Ranked.map f)) =
      (unbeatenBy best entries).map (Ranked.map f) := by
  unfold unbeatenBy
  rw [List.filter_map]
  rfl

namespace Hierarchy

variable {f g} {h h' : Hierarchy} {args args' : List TypeRef}
  (hranks : ∀ c, h'.ranks? args' (f c) = h.ranks? args c)
include hranks

theorem viable_map (cs : List Candidate) :
    h'.viable args' (cs.map f) = (h.viable args cs).map (Ranked.map f) := by
  unfold viable
  rw [List.filterMap_map, List.map_filterMap]
  congr 1
  funext c
  rw [Function.comp_apply, hranks, Option.map_map]
  rfl

/-- **Candidates with the same ranks win the same calls.** -/
theorem resolve_map (hconstructor : ∀ c, (f c).constructor = g c.constructor)
    (cs : List Candidate) : h'.resolve (cs.map f) args' = (h.resolve cs args).map f g := by
  have hname (e : Ranked) : (e.map f).candidate.constructor = g e.candidate.constructor :=
    hconstructor e.candidate
  unfold resolve
  rw [viable_map hranks]
  cases h.viable args cs with
  | nil => rfl
  | cons first rest =>
    simp only [List.map_cons, survivor_map]
    rw [← List.map_cons, unbeatenBy_map, List.length_map, apply_ite (Resolution.map f g)]
    simp only [Resolution.map, List.map_map, Function.comp_def, hname]

end Hierarchy

end ConstructorCheck
