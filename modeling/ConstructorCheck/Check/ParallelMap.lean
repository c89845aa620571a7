/-!
# Doing something for all entries at once

A list may be split among workers. Which of them comes first is not known, so a caller may rely on
two things only: the results stand in the order of the entries, and if some entries fail, the error
is that of one of them, whichever it is.

Whatever works like that is a `ParallelMap`. What is said about batches holds for all of them; the
program starts a task for each entry.
-/

namespace ConstructorCheck

/-- A way to do something that may fail for all entries of a list at once. -/
class ParallelMap where
  /-- The results for all entries, or an error. -/
  mapM {α β ε : Type} (f : α → Except ε β) (l : List α) : Except ε (List β)
  /-- It succeeds when no entry fails, with the results in the order of the entries. -/
  mapM_eq_ok_iff {α β ε : Type} {f : α → Except ε β} {l : List α} {bs : List β} :
    mapM f l = .ok bs ↔ l.mapM f = .ok bs
  /-- An error is that of an entry, not necessarily of the first one that fails. -/
  exists_of_mapM_eq_error {α β ε : Type} {f : α → Except ε β} {l : List α} {e : ε} :
    mapM f l = .error e → ∃ a ∈ l, f a = .error e

namespace ParallelMap

variable {α β ε : Type} {f : α → Except ε β} {e : ε}

/-- One entry after the other, too, the error is that of an entry. -/
theorem exists_of_sequential_error {l : List α} (he : l.mapM f = .error e) :
    ∃ a ∈ l, f a = .error e := by
  induction l with
  | nil => cases he
  | cons a l ih =>
    rw [List.mapM_cons] at he
    cases ha : f a with
    | error x =>
      rw [ha] at he
      cases he
      exact ⟨a, List.mem_cons_self, ha⟩
    | ok b =>
      rw [ha] at he
      cases hl : l.mapM f with
      | error x =>
        rw [hl] at he
        cases he
        obtain ⟨c, hc, hx⟩ := ih hl
        exact ⟨c, List.mem_cons_of_mem a hc, hx⟩
      | ok bs =>
        rw [hl] at he
        cases he

/-- What a task returns is what its computation returns. -/
theorem mapM_spawn (f : α → Except ε β) (l : List α) :
    (l.map fun a => Task.spawn fun _ => f a).mapM (·.get) = l.mapM f := by
  rw [List.mapM_map]
  rfl

/-- A task for each entry; the results are taken in the order of the entries. -/
instance tasks : ParallelMap where
  mapM f l := (l.map fun a => Task.spawn fun _ => f a).mapM (·.get)
  mapM_eq_ok_iff := by
    intro α β ε f l bs
    rw [mapM_spawn]
  exists_of_mapM_eq_error := by
    intro α β ε f l e he
    rw [mapM_spawn] at he
    exact exists_of_sequential_error he

end ParallelMap

end ConstructorCheck
