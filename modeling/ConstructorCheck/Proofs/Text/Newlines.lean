import ConstructorCheck.Proofs.Text.Boundaries
/-!
# Lines that end with newlines

A line map ends lines at newlines and at carriage returns that no newline follows. Whoever looks at
newlines only sees fewer lines, and the same lines in a text without such lone returns.

* `NoLoneReturn` — a newline follows each carriage return
* `lineAt_eq_countP` — the line of an offset, as a number of line starts
* `count_newline_le_lineAt`, `lineAt_of_noLoneReturn` — the line of an offset and the newlines
  before it
* `exists_lineStart` — the start of the line of an offset is the last one that does not exceed it
-/

namespace ConstructorCheck.Text

/-- A newline follows each carriage return. -/
def NoLoneReturn (t : List Char) : Prop := ∀ a b, t = a ++ '\r' :: b → b.head? = some '\n'

/-- The offsets right after each newline of `t`, where `t` begins at offset `offset`. -/
def afterNewlines : Nat → List Char → List Nat
  | _, [] => []
  | offset, c :: r =>
    let next := offset + c.utf8Size
    if c = '\n' then next :: afterNewlines next r else afterNewlines next r

section AfterNewlines

variable {offset n : Nat} {t a b : List Char}

theorem NoLoneReturn.of_append_right (ht : NoLoneReturn (a ++ b)) : NoLoneReturn b := by
  rintro x y rfl
  exact ht (a ++ x) y (List.append_assoc a x _).symm

/-- A front part has no lone return either, unless it is cut after a return. -/
theorem NoLoneReturn.of_append_left (ht : NoLoneReturn (a ++ b))
    (ha : b = [] ∨ ∃ l, a = l ++ ['\n']) : NoLoneReturn a := by
  rintro x y rfl
  have hhead := ht x (y ++ b) (by rw [List.append_assoc, List.cons_append])
  cases y with
  | cons d y => exact hhead
  | nil =>
    rcases ha with rfl | ⟨l, hl⟩
    · cases hhead
    · cases List.append_inj_right' hl rfl

theorem noLoneReturn_cons_iff {c : Char} : NoLoneReturn (c :: t) ↔
    (c = '\r' → t.head? = some '\n') ∧ NoLoneReturn t := by
  constructor
  · intro ht
    refine ⟨?_, NoLoneReturn.of_append_right (a := [c]) ht⟩
    rintro rfl
    exact ht [] t rfl
  · rintro ⟨hc, ht⟩ a b hab
    cases a with
    | nil =>
      obtain ⟨rfl, rfl⟩ := List.cons.inj hab
      exact hc rfl
    | cons d a => exact ht a b (List.cons.inj hab).2

instance decidableNoLoneReturn : (t : List Char) → Decidable (NoLoneReturn t)
  | [] => isTrue fun a _ hab => absurd hab (by cases a <;> simp)
  | c :: r =>
    have := decidableNoLoneReturn r
    decidable_of_iff _ noLoneReturn_cons_iff.symm

theorem afterNewlines_append (offset : Nat) (a b : List Char) :
    afterNewlines offset (a ++ b) =
      afterNewlines offset a ++ afterNewlines (offset + byteLength a) b := by
  induction a generalizing offset with
  | nil => rfl
  | cons c r ih =>
    simp only [List.cons_append, afterNewlines, byteLength_cons, ← Nat.add_assoc, ih]
    split
    · rfl
    · rfl

theorem length_afterNewlines (offset : Nat) (t : List Char) :
    (afterNewlines offset t).length = t.count '\n' := by
  induction t generalizing offset with
  | nil => rfl
  | cons c r ih =>
    rw [afterNewlines, List.count_cons]
    split
    · next hc => simp [hc, ih]
    · next hc => simp [hc, ih]

/-- Newlines are not the only line ends. -/
theorem afterNewlines_sublist (offset : Nat) (t : List Char) :
    (afterNewlines offset t).Sublist (startsAfter offset t) := by
  induction t generalizing offset with
  | nil => exact .slnil
  | cons c r ih =>
    rw [afterNewlines, startsAfter]
    by_cases hc : c = '\n'
    · rw [if_pos hc, if_pos (Or.inl hc)]
      exact (ih _).cons_cons _
    · rw [if_neg hc]
      split
      · exact (ih _).cons _
      · exact ih _

/-- **In a front part without lone returns lines end with newlines**, whatever follows. -/
theorem startsAfter_append_of_noLoneReturn (ha : NoLoneReturn a) (offset : Nat) (b : List Char) :
    startsAfter offset (a ++ b) =
      afterNewlines offset a ++ startsAfter (offset + byteLength a) b := by
  induction a generalizing offset with
  | nil => rfl
  | cons c r ih =>
    obtain ⟨hc, hr⟩ := noLoneReturn_cons_iff.1 ha
    have hends : (c = '\n' ∨ (c = '\r' ∧ (r ++ b).head? ≠ some '\n')) ↔ c = '\n' := by
      refine or_iff_left fun hreturn => hreturn.2 ?_
      rw [List.head?_append, hc hreturn.1, Option.some_or]
    simp only [List.cons_append, startsAfter, afterNewlines, hends, ih hr, byteLength_cons,
      ← Nat.add_assoc]
    split
    · rfl
    · rfl

theorem lt_of_mem_afterNewlines (hn : n ∈ afterNewlines offset t) : offset < n :=
  lt_of_mem_startsAfter ((afterNewlines_sublist offset t).subset hn)

theorem le_of_mem_afterNewlines (hn : n ∈ afterNewlines offset t) :
    n ≤ offset + byteLength t := by
  obtain ⟨a, c, b, rfl, -, rfl⟩ :=
    terminator_of_mem_startsAfter ((afterNewlines_sublist offset t).subset hn)
  simp only [byteLength_append, byteLength_cons, byteLength_nil]
  omega

/-- The newlines of the first part are those that end within it. -/
theorem countP_afterNewlines (offset : Nat) (a b : List Char) :
    (afterNewlines offset (a ++ b)).countP (· ≤ offset + byteLength a) = a.count '\n' := by
  rw [afterNewlines_append, List.countP_append, ← length_afterNewlines offset a]
  have hfirst : (afterNewlines offset a).countP (· ≤ offset + byteLength a) =
      (afterNewlines offset a).length :=
    List.countP_eq_length.2 fun n hn => decide_eq_true (le_of_mem_afterNewlines hn)
  have hsecond : (afterNewlines (offset + byteLength a) b).countP (· ≤ offset + byteLength a) =
      0 := by
    refine List.countP_eq_zero.2 fun n hn => ?_
    have := lt_of_mem_afterNewlines hn
    simpa using this
  rw [hfirst, hsecond, Nat.add_zero]

end AfterNewlines

/-! ## The line of an offset -/

/-- In an ascending list the entries up to a limit stand in front. -/
theorem takeWhile_le_eq_filter {l : List Nat} (hl : l.Pairwise (· < ·)) (n : Nat) :
    l.takeWhile (· ≤ n) = l.filter (· ≤ n) := by
  induction l with
  | nil => rfl
  | cons x l ih =>
    obtain ⟨hx, hl⟩ := List.pairwise_cons.1 hl
    by_cases hle : x ≤ n
    · rw [List.takeWhile_cons_of_pos (by simpa using hle),
        List.filter_cons_of_pos (by simpa using hle), ih hl]
    · rw [List.takeWhile_cons_of_neg (by simpa using hle), eq_comm, List.filter_eq_nil_iff]
      intro y hy
      rcases List.mem_cons.1 hy with rfl | hy
      · simpa using hle
      · have := hx y hy
        simp
        omega

namespace LineMap

variable {t a b : List Char} {n : Nat}

/-- The line of an offset is the number of lines that start before it, the first one apart. -/
theorem lineAt_eq_countP (t : List Char) (n : Nat) :
    (build t).lineAt n = (startsAfter 0 t).countP (· ≤ n) := by
  rw [lineAt_build, takeWhile_le_eq_filter (startsAfter_sorted 0 t),
    List.filter_cons_of_pos (by simp), List.length_cons, Nat.add_sub_cancel,
    List.countP_eq_length_filter]

/-- **There is a line end for each newline.** -/
theorem count_newline_le_lineAt (a b : List Char) :
    a.count '\n' ≤ (build (a ++ b)).lineAt (byteLength a) := by
  have hcount := countP_afterNewlines 0 a b
  rw [Nat.zero_add] at hcount
  rw [lineAt_eq_countP, ← hcount]
  exact (afterNewlines_sublist 0 (a ++ b)).countP_le

/-- **Without lone returns the newlines are the line ends.** -/
theorem lineAt_of_noLoneReturn (ht : NoLoneReturn (a ++ b)) (q : List Char) :
    (build (a ++ b ++ q)).lineAt (byteLength a) = a.count '\n' := by
  have hcount := countP_afterNewlines 0 a b
  rw [Nat.zero_add] at hcount
  have hlater : (startsAfter (0 + byteLength (a ++ b)) q).countP (· ≤ byteLength a) = 0 := by
    refine List.countP_eq_zero.2 fun n hn => ?_
    have hlt := lt_of_mem_startsAfter hn
    rw [byteLength_append] at hlt
    simp only [decide_eq_true_eq]
    omega
  rw [lineAt_eq_countP, startsAfter_append_of_noLoneReturn ht, List.countP_append, hcount, hlater,
    Nat.add_zero]

/-- **The start of the line of an offset is the last one that does not exceed it.** -/
theorem exists_lineStart (t : List Char) (n : Nat) :
    ∃ s, (build t).lineStart? ((build t).lineAt n) = some s ∧ s ≤ n ∧
      ∀ m ∈ 0 :: startsAfter 0 t, m ≤ n → m ≤ s := by
  have htake := takeWhile_le_eq_filter (startsAfter_sorted 0 t) n
  obtain ⟨rest, hrest⟩ := List.takeWhile_prefix (l := 0 :: startsAfter 0 t) (· ≤ n)
  obtain ⟨init, s, hlast⟩ : ∃ init s, (0 :: startsAfter 0 t).takeWhile (· ≤ n) = init ++ [s] := by
    rcases List.eq_nil_or_concat ((0 :: startsAfter 0 t).takeWhile (· ≤ n)) with hnil | ⟨l, s, hl⟩
    · rw [List.takeWhile_cons_of_pos (by simp)] at hnil
      cases hnil
    · exact ⟨l, s, by rw [hl, List.concat_eq_append]⟩
  refine ⟨s, ?_, ?_, fun m hm hle => ?_⟩
  · show (0 :: startsAfter 0 t)[(build t).lineAt n]? = some s
    rw [lineAt_build]
    rw [hlast] at hrest ⊢
    rw [← hrest]
    simp
  · have hs : s ∈ (0 :: startsAfter 0 t).takeWhile (· ≤ n) := by simp [hlast]
    simpa using List.mem_takeWhile_imp hs
  · have hm : m ∈ init ++ [s] := by
      rw [← hlast, htake]
      exact List.mem_filter.2 ⟨hm, decide_eq_true hle⟩
    have hsorted : (init ++ [s]).Pairwise (· < ·) := by
      rw [← hlast, htake]
      exact (startsAfter_sorted 0 t).filter _
    rcases List.mem_append.1 hm with hm | hm
    · exact Nat.le_of_lt ((List.pairwise_append.1 hsorted).2.2 m hm s (List.mem_singleton.2 rfl))
    · exact Nat.le_of_eq (List.mem_singleton.1 hm)

end LineMap

end ConstructorCheck.Text
