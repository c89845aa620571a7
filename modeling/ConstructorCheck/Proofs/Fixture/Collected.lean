import ConstructorCheck.Proofs.Fixture.Requests
import Mathlib.Data.List.Forall2
/-!
# What requests carry

The requests of a fixture are one long list, class after class. What it carries of one sort (bases,
say, or members) stands in the list in the order in which the fixture names it, and one class finds
its share by filtering.

* `Requests.Collects` — the entries of one sort match some parts of a specification one by one
* `Fixture.partsOf` — the parts of all classes, each with the id of its class
* `forall₂_filter_partsOf` — the share of one class matches the parts of that class
-/

namespace ConstructorCheck

/-! ## Collecting -/

section Collects

variable {α β γ : Type} {q : Declaration → Option β} {R : α → β → Prop} {as bs : List α}
  {r s : Requests} {d : Declaration}

/-- What the requested declarations carry matches some parts of a specification one by one. -/
def Requests.Collects (q : Declaration → Option β) (R : α → β → Prop) (as : List α)
    (r : Requests) : Prop := ∀ ds, r = .ok ds → List.Forall₂ R as (ds.filterMap q)

namespace Requests.Collects

theorem nil : Collects q R [] (.ok []) := by
  intro ds hok
  cases hok
  exact .nil

theorem none (hd : q d = .none) : Collects q R [] (pure [d]) := by
  intro ds hok
  cases hok
  simp [hd]

theorem single {a : α} {b : β} (hd : q d = some b) (hab : R a b) :
    Collects q R [a] (pure [d]) := by
  intro ds hok
  cases hok
  simp [hd, hab]

theorem bind {x : Except ModelError γ} {r : γ → Requests}
    (hr : ∀ c, x = .ok c → Collects q R as (r c)) : Collects q R as (x >>= r) := by
  intro ds hok
  obtain ⟨c, hc, hok⟩ := bind_eq_ok_iff.1 hok
  exact hr c hc ds hok

theorem append (hr : Collects q R as r) (hs : Collects q R bs s) :
    Collects q R (as ++ bs) (r.append s) := by
  intro ds hok
  obtain ⟨ds₁, hds₁, hok⟩ := bind_eq_ok_iff.1 hok
  obtain ⟨ds₂, hds₂, hok⟩ := bind_eq_ok_iff.1 hok
  cases hok
  rw [List.filterMap_append]
  exact List.rel_append (hr ds₁ hds₁) (hs ds₂ hds₂)

theorem all {part : γ → List α} {req : γ → Requests} (l : List γ)
    (hreq : ∀ c, Collects q R (part c) (req c)) :
    Collects q R (l.flatMap part) (Requests.all l req) := by
  intro ds hok
  obtain ⟨dss, hdss, rfl⟩ := map_eq_ok_iff.1 hok
  clear hok
  rw [mapM_eq_ok_iff] at hdss
  induction hdss with
  | nil => exact .nil
  | cons hc _ ih =>
    rw [List.flatMap_cons, List.flatten_cons, List.filterMap_append]
    exact List.rel_append (hreq _ _ hc) ih

/-- Each request carries one entry. -/
theorem all_single {e : γ → α} {req : γ → Requests} (l : List γ)
    (hreq : ∀ c, Collects q R [e c] (req c)) : Collects q R (l.map e) (Requests.all l req) := by
  rw [List.map_eq_flatMap]
  exact all l hreq

theorem all_none {req : γ → Requests} (l : List γ) (hreq : ∀ c, Collects q R [] (req c)) :
    Collects q R [] (Requests.all l req) := by
  have hall := all l hreq
  rwa [List.flatMap_eq_nil_iff.2 fun _ _ => rfl] at hall

end Requests.Collects

end Collects

/-! ## The share of one class -/

namespace Fixture

variable {α β : Type} {f : SourceFile} {g : Hierarchy} {classes : List ClassSpec} {c : ClassSpec}
  {id : ClassId} {part : ClassSpec → List α} {R : ClassId × α → β → Prop}

/-- The parts of all classes, each with the id of its class. -/
def partsOf (part : ClassSpec → List α) (classes : List ClassSpec) : List (ClassId × α) :=
  (numbered classes).flatMap fun p => (part p.1).map (p.2, ·)

theorem filter_flatMap_of_nodup {pairs : List (ClassSpec × ClassId)}
    (hnodup : (pairs.map (·.2)).Nodup) (hc : (c, id) ∈ pairs) :
    (pairs.flatMap fun p => (part p.1).map (p.2, ·)).filter (fun e => e.1 = id) =
      (part c).map (id, ·) := by
  have hblock (p : ClassSpec × ClassId) : ((part p.1).map (p.2, ·)).filter (fun e => e.1 = id) =
      if p.2 = id then (part p.1).map (p.2, ·) else [] := by
    split
    · next hid =>
      refine List.filter_eq_self.2 fun e he => ?_
      obtain ⟨a, -, rfl⟩ := List.mem_map.1 he
      exact decide_eq_true hid
    · next hid =>
      refine List.filter_eq_nil_iff.2 fun e he => ?_
      obtain ⟨a, -, rfl⟩ := List.mem_map.1 he
      simpa using hid
  induction pairs with
  | nil => cases hc
  | cons p pairs ih =>
    obtain ⟨hnotin, hnodup⟩ := List.nodup_cons.1 hnodup
    rw [List.flatMap_cons, List.filter_append, hblock]
    rcases List.mem_cons.1 hc with rfl | hc
    · have hrest : (pairs.flatMap fun p => (part p.1).map (p.2, ·)).filter
          (fun e => e.1 = id) = [] := by
        rw [List.filter_flatMap, List.flatMap_eq_nil_iff]
        intro p hp
        rw [hblock, if_neg fun hid => hnotin (List.mem_map.2 ⟨p, hp, hid⟩)]
      rw [if_pos rfl, hrest, List.append_nil]
    · rw [if_neg fun hid => hnotin (List.mem_map.2 ⟨_, hc, hid.symm⟩), List.nil_append,
        ih hnodup hc]

/-- **The share of a class matches the parts of the class.** -/
theorem forall₂_filter_partsOf {owner : β → ClassId} {l : List β}
    (hl : List.Forall₂ R (partsOf part classes) l) (howner : ∀ a b, R a b → owner b = a.1)
    (hc : classes[id.index]? = some c) :
    List.Forall₂ (fun a b => R (id, a) b) (part c) (l.filter fun b => owner b = id) := by
  have hfilter := List.rel_filter (p := fun e : ClassId × α => decide (e.1 = id))
    (q := fun b => decide (owner b = id)) (fun a b hab => by simp [howner a b hab]) hl
  have hparts : (partsOf part classes).filter (fun e => e.1 = id) = (part c).map (id, ·) :=
    filter_flatMap_of_nodup (numbered_ids_nodup classes) (mem_numbered_iff.2 hc)
  rwa [hparts, List.forall₂_map_left_iff] at hfilter

theorem forall₂_shareOf {R : α → β → Prop} {l : List (ClassId × β)}
    (hl : List.Forall₂ (fun a b => b.1 = a.1 ∧ R a.2 b.2) (partsOf part classes) l)
    (hc : classes[id.index]? = some c) : List.Forall₂ R (part c) (shareOf id l) :=
  List.forall₂_map_right_iff.2 <|
    (forall₂_filter_partsOf hl (fun _ _ hab => hab.1) hc).imp fun _ _ hab => hab.2

theorem forall₂_partsOf {q : Declaration → Option β} {ds : List Declaration}
    (hpart : ∀ (c : ClassSpec) id,
      Requests.Collects q R ((part c).map (id, ·)) (c.requests f g id))
    (hds : Requests.all (numbered classes) (fun p => p.1.requests f g p.2) = .ok ds) :
    List.Forall₂ R (partsOf part classes) (ds.filterMap q) :=
  Requests.Collects.all (numbered classes) (fun p => hpart p.1 p.2) ds hds

end Fixture

end ConstructorCheck
