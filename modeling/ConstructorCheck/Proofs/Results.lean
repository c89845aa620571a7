import Mathlib.Data.List.Perm.Basic
/-!
# Results of computations that may fail

How a computation in `Except` or `Option` comes to its result: from which results of its steps, or
from the failure of which step.

* `mapM_perm` — the order of a list decides nothing but the order of the results
* `relabel` — a result in other words; a computation whose steps say the same in other words comes
  to the same result in other words
-/

namespace ConstructorCheck

variable {ε ε' α α' β β' : Type}

section Steps

variable {x : Except ε α} {f : α → Except ε β}

theorem bind_eq_ok_iff {b : β} : (x >>= f) = .ok b ↔ ∃ a, x = .ok a ∧ f a = .ok b := by
  cases x <;> simp [bind, Except.bind]

theorem bind_eq_error_iff {e : ε} :
    (x >>= f) = .error e ↔ x = .error e ∨ ∃ a, x = .ok a ∧ f a = .error e := by
  cases x <;> simp [bind, Except.bind]

theorem map_eq_ok_iff {g : α → β} {b : β} : x.map g = .ok b ↔ ∃ a, x = .ok a ∧ g a = b := by
  cases x <;> simp [Except.map]

theorem map_eq_error_iff {g : α → β} {e : ε} : x.map g = .error e ↔ x = .error e := by
  cases x <;> simp [Except.map]

theorem mapError_eq_ok_iff {g : ε → ε'} {a : α} : x.mapError g = .ok a ↔ x = .ok a := by
  cases x <;> simp [Except.mapError]

theorem toOption_eq_some_iff {a : α} : x.toOption = some a ↔ x = .ok a := by
  cases x <;> simp [Except.toOption]

/-- A computation fails or succeeds. -/
theorem exists_error_iff : (∃ e, x = .error e) ↔ ¬ ∃ a, x = .ok a := by
  cases x <;> simp

end Steps

/-- A computation along a list succeeds with the results of its steps. -/
theorem mapM_eq_ok_iff {f : α → Except ε β} {l : List α} {bs : List β} :
    l.mapM f = .ok bs ↔ List.Forall₂ (fun a b => f a = .ok b) l bs := by
  induction l generalizing bs with
  | nil => cases bs <;> simp [pure, Except.pure]
  | cons a l ih =>
    simp only [List.mapM_cons, bind_eq_ok_iff, List.forall₂_cons_left_iff, ih]
    constructor
    · rintro ⟨b, hb, bs', hbs, he⟩
      exact ⟨b, bs', hb, hbs, (Except.ok.inj he).symm⟩
    · rintro ⟨b, bs', hb, hbs, rfl⟩
      exact ⟨b, hb, bs', hbs, rfl⟩

theorem exists_ok_of_mapM {f : α → Except ε β} {l : List α} {bs : List β}
    (hok : l.mapM f = .ok bs) {a : α} (ha : a ∈ l) : ∃ b, f a = .ok b := by
  rw [mapM_eq_ok_iff] at hok
  induction hok with
  | nil => cases ha
  | cons hb _ ih =>
    rcases List.mem_cons.1 ha with rfl | ha
    · exact ⟨_, hb⟩
    · exact ih ha

theorem exists_of_mem_mapM {f : α → Except ε β} {l : List α} {bs : List β}
    (hok : l.mapM f = .ok bs) {b : β} (hb : b ∈ bs) : ∃ a ∈ l, f a = .ok b := by
  rw [mapM_eq_ok_iff] at hok
  induction hok with
  | nil => cases hb
  | @cons a _ _ _ ha _ ih =>
    rcases List.mem_cons.1 hb with rfl | hb
    · exact ⟨a, List.mem_cons_self, ha⟩
    · obtain ⟨x, hx, hxb⟩ := ih hb
      exact ⟨x, List.mem_cons_of_mem _ hx, hxb⟩

/-- What sets two entries apart sets their results apart. -/
theorem pairwise_of_mapM {f : α → Except ε β} {S : α → α → Prop} {T : β → β → Prop} {l : List α}
    {bs : List β} (hok : l.mapM f = .ok bs) (hS : l.Pairwise S)
    (hT : ∀ {a b a' b'}, f a = .ok b → f a' = .ok b' → S a a' → T b b') : bs.Pairwise T := by
  rw [mapM_eq_ok_iff] at hok
  induction hok with
  | nil => exact .nil
  | @cons a b l bs hb hbs ih =>
    obtain ⟨hhead, htail⟩ := List.pairwise_cons.1 hS
    refine List.pairwise_cons.2 ⟨fun b' hb' => ?_, ih htail⟩
    obtain ⟨a', ha', hab'⟩ := exists_of_mem_mapM (mapM_eq_ok_iff.2 hbs) hb'
    exact hT hb hab' (hhead a' ha')

theorem exists_mapM_of_forall {f : α → Except ε β} {l : List α} (h : ∀ a ∈ l, ∃ b, f a = .ok b) :
    ∃ bs, l.mapM f = .ok bs := by
  induction l with
  | nil => exact ⟨[], rfl⟩
  | cons a l ih =>
    obtain ⟨b, hb⟩ := h a List.mem_cons_self
    obtain ⟨bs, hbs⟩ := ih fun x hx => h x (List.mem_cons_of_mem _ hx)
    exact ⟨b :: bs, by rw [List.mapM_cons, hb, hbs]; rfl⟩

/-- A computation along a list fails with the error of the first step that fails. -/
theorem mapM_eq_error_iff {f : α → Except ε β} {l : List α} {e : ε} :
    l.mapM f = .error e ↔ ∃ before a after, l = before ++ a :: after ∧
      (∀ x ∈ before, ∃ b, f x = .ok b) ∧ f a = .error e := by
  induction l with
  | nil => simp [pure, Except.pure]
  | cons x l ih =>
    rw [List.mapM_cons, bind_eq_error_iff]
    constructor
    · rintro (hx | ⟨b, hb, hrest⟩)
      · exact ⟨[], x, l, rfl, fun _ h => absurd h List.not_mem_nil, hx⟩
      · rcases bind_eq_error_iff.1 hrest with hl | ⟨_, _, hpure⟩
        · obtain ⟨before, a, after, rfl, hbefore, ha⟩ := ih.1 hl
          exact ⟨x :: before, a, after, rfl, List.forall_mem_cons.2 ⟨⟨b, hb⟩, hbefore⟩, ha⟩
        · cases hpure
    · rintro ⟨before, a, after, hl, hbefore, ha⟩
      cases before with
      | nil =>
        obtain ⟨rfl, rfl⟩ := List.cons.inj hl
        exact Or.inl ha
      | cons y before =>
        obtain ⟨rfl, rfl⟩ := List.cons.inj hl
        obtain ⟨⟨b, hb⟩, hbefore⟩ := List.forall_mem_cons.1 hbefore
        refine Or.inr ⟨b, hb, bind_eq_error_iff.2 (Or.inl ?_)⟩
        exact ih.2 ⟨before, a, after, rfl, hbefore, ha⟩

/-- What each step keeps, all steps together keep. -/
theorem foldlM_preserves {σ : Type} {f : σ → α → Except ε σ} {P : σ → Prop}
    (hstep : ∀ {s a s'}, f s a = .ok s' → P s → P s') {l : List α} {s s' : σ}
    (hok : l.foldlM f s = .ok s') (hs : P s) : P s' := by
  induction l generalizing s with
  | nil =>
    cases hok
    exact hs
  | cons a l ih =>
    rw [List.foldlM_cons, bind_eq_ok_iff] at hok
    obtain ⟨s₁, ha, hok⟩ := hok
    exact ih hok (hstep ha hs)

/-- Steps that come to a result from every state with a property, and keep it, do so together. -/
theorem exists_foldlM_of_forall {σ : Type} {f : σ → α → Option σ} {P : σ → Prop}
    (hstep : ∀ s a, P s → ∃ s', f s a = some s' ∧ P s') (l : List α) {s : σ} (hs : P s) :
    ∃ s', l.foldlM f s = some s' ∧ P s' := by
  induction l generalizing s with
  | nil => exact ⟨s, rfl, hs⟩
  | cons a l ih =>
    obtain ⟨t, ht, hpt⟩ := hstep s a hs
    rw [List.foldlM_cons, ht]
    exact ih hpt

theorem mapM_eq_some_iff {f : α → Option β} {l : List α} {bs : List β} :
    l.mapM f = some bs ↔ l.map f = bs.map some := by
  induction l generalizing bs with
  | nil => cases bs <;> simp
  | cons a l ih =>
    rw [List.mapM_cons, List.map_cons]
    constructor
    · intro he
      obtain ⟨b, hb, he⟩ := Option.bind_eq_some_iff.1 he
      obtain ⟨bs', hbs, he⟩ := Option.bind_eq_some_iff.1 he
      cases he
      rw [hb, ih.1 hbs, List.map_cons]
    · intro he
      cases bs with
      | nil => simp at he
      | cons b bs =>
        obtain ⟨hb, hbs⟩ := List.cons.inj he
        rw [hb, ih.2 hbs]
        rfl

/-- Every result of a computation along a list comes from a step. -/
theorem exists_of_mem_mapM_some {f : α → Option β} {l : List α} {bs : List β}
    (hok : l.mapM f = some bs) {b : β} (hb : b ∈ bs) : ∃ a ∈ l, f a = some b := by
  have hmem := List.mem_map_of_mem (f := some) hb
  rw [← mapM_eq_some_iff.1 hok] at hmem
  exact List.mem_map.1 hmem

/-- In another order the steps have the same results, in another order. -/
theorem mapM_perm {f : α → Except ε β} {l l' : List α} (hp : l.Perm l') {bs : List β}
    (hok : l.mapM f = .ok bs) : ∃ bs', l'.mapM f = .ok bs' ∧ bs.Perm bs' := by
  obtain ⟨bs', hbs', hperm⟩ := List.perm_comp_forall₂ hp.symm (mapM_eq_ok_iff.1 hok)
  exact ⟨bs', mapM_eq_ok_iff.2 hbs', hperm.symm⟩

/-- Two lists side by side: what their steps have in common, their results have in common. -/
theorem mapM_forall₂ {f : α → Except ε β} {f' : α' → Except ε' β'} {R : α → α' → Prop}
    {S : β → β' → Prop} {l : List α} {l' : List α'} {bs : List β} (hl : List.Forall₂ R l l')
    (hstep : ∀ {a a' b}, R a a' → f a = .ok b → ∃ b', f' a' = .ok b' ∧ S b b')
    (hok : l.mapM f = .ok bs) : ∃ bs', l'.mapM f' = .ok bs' ∧ List.Forall₂ S bs bs' := by
  rw [mapM_eq_ok_iff] at hok
  simp only [mapM_eq_ok_iff]
  induction hl generalizing bs with
  | nil =>
    cases hok
    exact ⟨[], .nil, .nil⟩
  | cons hR _ ih =>
    cases hok with
    | cons hb hbs =>
      obtain ⟨b', hb', hS⟩ := hstep hR hb
      obtain ⟨bs', hbs', hall⟩ := ih hbs
      exact ⟨b' :: bs', .cons hb' hbs', .cons hS hall⟩

/-! ## Results in other words -/

/-- A result with its value and its error put in other words. -/
def relabel (e : ε → ε') (f : α → β) : Except ε α → Except ε' β
  | .ok a => .ok (f a)
  | .error x => .error (e x)

section Relabel

variable {e : ε → ε'} {f : α → α'} {g : β → β'}

@[simp] theorem relabel_ok (a : α) : relabel e f (.ok a) = .ok (f a) := rfl

@[simp] theorem relabel_error (x : ε) : relabel e f (.error x) = .error (e x) := rfl

theorem relabel_bind {x : Except ε α} {k : α → Except ε β} {k' : α' → Except ε' β'}
    (hk : ∀ a, k' (f a) = relabel e g (k a)) : relabel e f x >>= k' = relabel e g (x >>= k) := by
  cases x with
  | ok a => exact hk a
  | error x => rfl

theorem relabel_map {x : Except ε α} {k : α → β} {k' : α' → β'} (hk : ∀ a, k' (f a) = g (k a)) :
    (relabel e f x).map k' = relabel e g (x.map k) := by
  cases x with
  | ok a => exact congrArg Except.ok (hk a)
  | error x => rfl

theorem relabel_mapError {δ δ' : Type} {d : δ → δ'} {x : Except ε α} {k : ε → δ} {k' : ε' → δ'}
    (hk : ∀ a, k' (e a) = d (k a)) :
    (relabel e f x).mapError k' = relabel d f (x.mapError k) := by
  cases x with
  | ok a => rfl
  | error x => exact congrArg Except.error (hk x)

theorem relabel_mapM {γ : Type} {k : γ → Except ε β} {k' : γ → Except ε' β'}
    (hk : ∀ a, k' a = relabel e g (k a)) (l : List γ) :
    l.mapM k' = relabel e (List.map g) (l.mapM k) := by
  induction l with
  | nil => rfl
  | cons a l ih =>
    rw [List.mapM_cons, List.mapM_cons, hk, ih]
    exact relabel_bind fun b => relabel_bind fun bs => rfl

theorem relabel_id (x : Except ε α) : relabel id id x = x := by cases x <;> rfl

/-- What keeps the errors and looks the same has the same errors, and values that look the same. -/
theorem relabel_id_eq_iff {x y : Except ε α} : relabel id f x = relabel id f y ↔
    (∃ z, x = .error z ∧ y = .error z) ∨ ∃ a b, x = .ok a ∧ y = .ok b ∧ f a = f b := by
  cases x <;> cases y <;> simp [relabel, eq_comm]

end Relabel

end ConstructorCheck
