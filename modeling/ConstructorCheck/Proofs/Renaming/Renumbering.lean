import ConstructorCheck.Proofs.Hierarchy.Owned
import Mathlib.Data.List.Perm.Basic
import Mathlib.Logic.Equiv.Basic
/-!
# Renumbered records

When the same records are put into a table in another order, they get other numbers. The new number
of each record can be found from the order alone, and owners that list their records in the order of
the table list the same ones under their new numbers.

* `exists_equiv_of_perm` — a list in another order, as a renumbering of positions
* `Owned.exists_renumbering` — a table in another order, as a renumbering of ids
-/

namespace ConstructorCheck

/-! ## Positions -/

/-- Renumbers the positions after the first one. -/
def afterFirst (p : Nat ≃ Nat) : Nat ≃ Nat where
  toFun
    | 0 => 0
    | n + 1 => p n + 1
  invFun
    | 0 => 0
    | n + 1 => p.symm n + 1
  left_inv n := by cases n <;> simp
  right_inv n := by cases n <;> simp

/-- A list in another order has its entries at other positions. -/
theorem exists_equiv_of_perm {α : Type} {l l' : List α} (hp : l.Perm l') :
    ∃ p : Nat ≃ Nat, ∀ n : Nat, l'[p n]? = l[n]? := by
  induction hp with
  | nil => exact ⟨Equiv.refl Nat, fun _ => rfl⟩
  | cons a _ ih =>
    obtain ⟨p, hp⟩ := ih
    refine ⟨afterFirst p, fun n => ?_⟩
    cases n with
    | zero => rfl
    | succ n => exact hp n
  | swap a b l =>
    refine ⟨Equiv.swap 0 1, fun n => ?_⟩
    match n with
    | 0 => rfl
    | 1 => rfl
    | n + 2 => rw [Equiv.swap_apply_of_ne_of_ne (by simp) (by simp)]; rfl
  | trans _ _ ih₁ ih₂ =>
    obtain ⟨p, hp⟩ := ih₁
    obtain ⟨q, hq⟩ := ih₂
    exact ⟨p.trans q, fun n => (hq (p n)).trans (hp n)⟩

theorem eq_of_map_eq {α β : Type} {f : α → β} {l l' : List α}
    (hf : ∀ a ∈ l, ∀ b ∈ l', f a = f b → a = b) (he : l.map f = l'.map f) : l = l' := by
  induction l generalizing l' with
  | nil => exact (List.map_eq_nil_iff.1 he.symm).symm
  | cons a l ih =>
    cases l' with
    | nil => cases he
    | cons b l' =>
      obtain ⟨hab, hl⟩ := List.cons.inj he
      rw [hf a List.mem_cons_self b List.mem_cons_self hab,
        ih (fun x hx y hy => hf x (List.mem_cons_of_mem _ hx) y (List.mem_cons_of_mem _ hy)) hl]

/-! ## Records -/

variable {ι ρ κ : Type}

/-- How the records of a sort are numbered. -/
structure Numbering (σ : RecordSort ι ρ κ) where
  number : ι ≃ Nat
  setId : ι → ρ → ρ
  id_setId : ∀ i r, σ.id (setId i r) = i
  tag_setId : ∀ i r, σ.tag (setId i r) = σ.tag r
  setId_id : ∀ r, setId (σ.id r) r = r
  setId_setId : ∀ i j r, setId i (setId j r) = setId i r

def memberNumbering : Numbering memberSort where
  number := MemberId.number
  setId i m := { m with id := i }
  id_setId _ _ := rfl
  tag_setId _ _ := rfl
  setId_id _ := rfl
  setId_setId _ _ _ := rfl

def constructorNumbering : Numbering constructorSort where
  number := ConstructorId.number
  setId i k := { k with id := i }
  id_setId _ _ := rfl
  tag_setId _ _ := rfl
  setId_id _ := rfl
  setId_setId _ _ _ := rfl

/-- The record without its number. -/
def Numbering.blank {σ : RecordSort ι ρ κ} (ν : Numbering σ) (r : ρ) : ρ :=
  ν.setId (ν.number.symm 0) r

theorem Numbering.setId_blank {σ : RecordSort ι ρ κ} (ν : Numbering σ) (i : ι) (r : ρ) :
    ν.setId i (ν.blank r) = ν.setId i r := ν.setId_setId ..

theorem Numbering.tag_blank {σ : RecordSort ι ρ κ} (ν : Numbering σ) (r : ρ) :
    σ.tag (ν.blank r) = σ.tag r := ν.tag_setId ..

/--
**Records that stand in another order, and are changed by `f` besides, are renumbered.** Each owner
lists its records as before, under their new numbers.
-/
theorem Owned.exists_renumbering {σ : RecordSort ι ρ κ} (ν : Numbering σ)
    {lists lists' : ClassId → Option (List ι)} {records records' : ι → Option ρ}
    {table table' : List ρ} (h : Owned σ lists records) (h' : Owned σ lists' records')
    (ht : InTable σ ν.number records table) (ht' : InTable σ ν.number records' table')
    {f : ρ → ρ} {e : ClassId → ClassId}
    (hperm : (table.map fun r => ν.blank (f r)).Perm (table'.map ν.blank))
    (hlists : ∀ c l, lists c = some l → ∃ l', lists' (e c) = some l' ∧
      (l'.filterMap records').map ν.blank = (l.filterMap records).map fun r => ν.blank (f r)) :
    ∃ τ : ι ≃ ι, (∀ i, records' (τ i) = (records i).map fun r => ν.setId (τ i) (f r)) ∧
      ∀ c l, lists c = some l → lists' (e c) = some (l.map τ) := by
  obtain ⟨p, hp⟩ := exists_equiv_of_perm hperm
  let τ : ι ≃ ι := ν.number.trans (p.trans ν.number.symm)
  have hrecords : ∀ i, records' (τ i) = (records i).map fun r => ν.setId (τ i) (f r) := by
    intro i
    have hblank := hp (ν.number i)
    rw [List.getElem?_map, List.getElem?_map] at hblank
    have hget : records' (τ i) = table'[p (ν.number i)]? := by
      rw [ht'.get]
      exact congrArg (table'[·]?) (ν.number.apply_symm_apply _)
    rw [← hget, ← ht.get] at hblank
    cases hi : records i with
    | none => simpa [hi] using hblank
    | some r =>
      rw [hi, Option.map_some, Option.map_eq_some_iff] at hblank
      obtain ⟨r', hr', hblank⟩ := hblank
      rw [hr', Option.map_some, ← ν.setId_id r', h'.id_eq hr', ← ν.setId_blank, hblank,
        ν.setId_blank]
  refine ⟨τ, hrecords, fun c l hl => ?_⟩
  obtain ⟨l', hl', hmap⟩ := hlists c l hl
  -- the records on both lists are the same, and so are the ids
  have hsame : l'.filterMap records' =
      (l.filterMap records).map fun r => ν.setId (τ (σ.id r)) (f r) := by
    refine eq_of_map_eq (f := ν.blank) (fun r hr s hs hrs => ?_) ?_
    · obtain ⟨t, hmem, rfl⟩ := List.mem_map.1 hs
      have hr' : records' (σ.id r) = some r := ((h'.mem_filterMap_iff hl').1 hr).1
      have hs' : records' (τ (σ.id t)) = some (ν.setId (τ (σ.id t)) (f t)) := by
        rw [hrecords, ((h.mem_filterMap_iff hl).1 hmem).1, Option.map_some]
      have htag : σ.tag r = σ.tag (ν.setId (τ (σ.id t)) (f t)) := by
        rw [← ν.tag_blank, hrs, ν.tag_blank]
      have hid := h'.key_inj hr' hs' (congrArg Prod.fst htag) (congrArg Prod.snd htag)
      rw [hid, hs'] at hr'
      exact (Option.some.inj hr').symm
    · rw [hmap, List.map_map]
      exact List.map_congr_left fun r _ => (ν.setId_setId _ _ _).symm
  have hids : l' = ((l.filterMap records).map σ.id).map τ := by
    rw [← h'.map_id_filterMap hl', hsame, List.map_map, List.map_map]
    exact List.map_congr_left fun r _ => ν.id_setId _ _
  rw [hl', hids, h.map_id_filterMap hl]

end ConstructorCheck
