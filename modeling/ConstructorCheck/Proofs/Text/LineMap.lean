import ConstructorCheck.Text.LineMap
import Mathlib.Data.List.TakeWhile
/-!
# Lines and offsets

An offset that belongs to a line is found on that line again, whatever the line ends with and
however far to the right the character is looked for.

* `mem_startsAfter_iff` — where lines start
* `startsAfter_sorted` — the offsets of the line starts ascend
* `terminator_of_mem_startsAfter` — in front of each line start stands a terminator
* `lineEnd_lt` — the content of a line ends before the next line starts
* `found_iff` — what a search among ascending offsets answers
* `lineAt_eq_length` — the line that the answer means
* `lineAt_offsetAt?` — from a line to an offset and back

The fourth point is where line ends come in. The end of a line is found by cutting the text between
two line starts and dropping the terminator characters at the end, and at least one is dropped.
-/

namespace ConstructorCheck.Text

/-! ## Parts of a text -/

theorem byteLength_take_le (n : Nat) (t : List Char) : byteLength (t.take n) ≤ byteLength t := by
  have h := byteLength_append (t.take n) (t.drop n)
  rw [List.take_append_drop] at h
  omega

/-- A text has only one part of some length in front. -/
theorem eq_of_append_eq {a b c d : List Char} (h : a ++ b = c ++ d)
    (hlen : byteLength a = byteLength c) : a = c := by
  have hab := splitBytes?_append a b
  rw [h, hlen, splitBytes?_append] at hab
  exact (congrArg Prod.fst (Option.some.inj hab)).symm

/-- Of two parts in front of a text the longer one begins with the other. -/
theorem exists_eq_append_of_le {a b c d : List Char} (h : a ++ b = c ++ d)
    (hle : byteLength a ≤ byteLength c) : ∃ m, c = a ++ m := by
  rcases List.append_eq_append_iff.1 h with ⟨m, hc, -⟩ | ⟨m, ha, -⟩
  · exact ⟨m, hc⟩
  · have hm : byteLength m = 0 := by
      rw [ha, byteLength_append] at hle
      omega
    cases m with
    | nil => exact ⟨[], by rw [ha, List.append_nil, List.append_nil]⟩
    | cons x m =>
      have := x.utf8Size_pos
      rw [byteLength_cons] at hm
      omega

theorem slice?_eq_some {start stop : Nat} {t l : List Char} (h : slice? start stop t = some l) :
    ∃ a b, t = a ++ l ++ b ∧ byteLength a = start ∧ start + byteLength l = stop := by
  unfold slice? at h
  split at h
  · next hle =>
    obtain ⟨⟨a, r⟩, ha, hr⟩ := Option.bind_eq_some_iff.1 h
    obtain ⟨⟨l', b⟩, hl, rfl⟩ := Option.map_eq_some_iff.1 hr
    obtain ⟨rfl, hstart⟩ := splitBytes?_eq_some ha
    obtain ⟨hrest, hlen⟩ := splitBytes?_eq_some hl
    refine ⟨a, b, ?_, hstart, ?_⟩
    · rw [List.append_assoc]
      exact congrArg (a ++ ·) hrest
    · show start + byteLength l' = stop
      omega
  · cases h

theorem byteLength_slice_le (start stop : Nat) (t : List Char) :
    byteLength (slice start stop t) ≤ stop - start := by
  unfold slice
  cases h : slice? start stop t with
  | none => exact Nat.zero_le _
  | some l =>
    obtain ⟨-, -, -, -, hstop⟩ := slice?_eq_some h
    rw [Option.getD_some]
    omega

/-! ## Line starts -/

/-- Whether a line ends with the character `c` when `b` follows. -/
def EndsLine (c : Char) (b : List Char) : Prop := c = '\n' ∨ (c = '\r' ∧ b.head? ≠ some '\n')

/-- A line starts right after each character that ends one. -/
theorem mem_startsAfter_iff {offset n : Nat} {t : List Char} : n ∈ startsAfter offset t ↔
    ∃ a c b, t = a ++ c :: b ∧ EndsLine c b ∧ n = offset + byteLength (a ++ [c]) := by
  induction t generalizing offset with
  | nil => simp [startsAfter]
  | cons c r ih =>
    have hlater : n ∈ startsAfter (offset + c.utf8Size) r ↔
        ∃ a d b, r = a ++ d :: b ∧ EndsLine d b ∧
          n = offset + byteLength (c :: a ++ [d]) := by
      simp only [ih, List.cons_append, byteLength_cons, Nat.add_assoc]
    have hsplit : (∃ a d b, c :: r = a ++ d :: b ∧ EndsLine d b ∧
        n = offset + byteLength (a ++ [d])) ↔
          (EndsLine c r ∧ n = offset + c.utf8Size) ∨ n ∈ startsAfter (offset + c.utf8Size) r := by
      rw [hlater]
      constructor
      · rintro ⟨a, d, b, heq, hends, hn⟩
        cases a with
        | nil =>
          obtain ⟨rfl, rfl⟩ := List.cons.inj heq
          exact Or.inl ⟨hends, hn⟩
        | cons x a =>
          obtain ⟨rfl, rfl⟩ := List.cons.inj heq
          exact Or.inr ⟨a, d, b, rfl, hends, hn⟩
      · rintro (⟨hends, hn⟩ | ⟨a, d, b, rfl, hends, hn⟩)
        · exact ⟨[], c, r, rfl, hends, hn⟩
        · exact ⟨c :: a, d, b, rfl, hends, hn⟩
    rw [hsplit, startsAfter]
    by_cases hends : c = '\n' ∨ (c = '\r' ∧ r.head? ≠ some '\n')
    · rw [if_pos hends, List.mem_cons]
      exact or_congr_left ⟨fun hn => ⟨hends, hn⟩, fun hn => hn.2⟩
    · rw [if_neg hends, or_iff_right fun hn => hends hn.1]

theorem mem_startsAfter_append_iff {a b : List Char} {c : Char} :
    byteLength (a ++ [c]) ∈ startsAfter 0 (a ++ c :: b) ↔ EndsLine c b := by
  rw [mem_startsAfter_iff]
  constructor
  · rintro ⟨x, d, y, heq, hends, hlen⟩
    rw [List.append_cons, List.append_cons x] at heq
    rw [Nat.zero_add] at hlen
    have hfront := eq_of_append_eq heq hlen
    rw [hfront] at heq
    obtain ⟨rfl, hcd⟩ := List.append_inj' hfront rfl
    obtain rfl := List.append_cancel_left heq
    rwa [List.singleton_inj.1 hcd]
  · exact fun hends => ⟨a, c, b, rfl, hends, (Nat.zero_add _).symm⟩

/-- In front of each line start but the first stands a terminator character. -/
theorem terminator_of_mem_startsAfter {offset n : Nat} {t : List Char}
    (h : n ∈ startsAfter offset t) :
    ∃ a c b, t = a ++ c :: b ∧ LineMap.isTerminator c = true ∧
      n = offset + byteLength (a ++ [c]) := by
  obtain ⟨a, c, b, ht, hends, hn⟩ := mem_startsAfter_iff.1 h
  refine ⟨a, c, b, ht, ?_, hn⟩
  rcases hends with rfl | ⟨rfl, -⟩
  · rfl
  · rfl

theorem lt_of_mem_startsAfter {offset n : Nat} {t : List Char} (h : n ∈ startsAfter offset t) :
    offset < n := by
  obtain ⟨a, c, -, -, -, rfl⟩ := terminator_of_mem_startsAfter h
  have := c.utf8Size_pos
  simp only [byteLength_append, byteLength_cons]
  omega

/-- The line starts ascend. -/
theorem startsAfter_sorted (offset : Nat) (t : List Char) :
    (offset :: startsAfter offset t).Pairwise (· < ·) := by
  refine List.pairwise_cons.2 ⟨fun n => lt_of_mem_startsAfter, ?_⟩
  induction t generalizing offset with
  | nil => exact .nil
  | cons c r ih =>
    simp only [startsAfter]
    split
    · exact List.pairwise_cons.2 ⟨fun n => lt_of_mem_startsAfter, ih _⟩
    · exact ih _

/-! ## The content of a line -/

namespace LineMap

theorem byteLength_trimEnd_le (t : List Char) : byteLength (trimEnd t) ≤ byteLength t := by
  have h : (t.reverse.takeWhile isTerminator ++ t.reverse.dropWhile isTerminator).reverse = t := by
    rw [List.takeWhile_append_dropWhile, List.reverse_reverse]
  have hlen := congrArg byteLength h
  rw [List.reverse_append, byteLength_append] at hlen
  unfold trimEnd
  omega

/-- A terminator at the end is dropped. -/
theorem byteLength_trimEnd_lt {t : List Char} {c : Char} (hc : isTerminator c = true) :
    byteLength (trimEnd (t ++ [c])) < byteLength (t ++ [c]) := by
  have htrim : trimEnd (t ++ [c]) = trimEnd t := by
    simp [trimEnd, hc]
  have hle := byteLength_trimEnd_le t
  have := c.utf8Size_pos
  rw [htrim, byteLength_append, byteLength_cons]
  omega

/-- Only terminator characters are dropped, and all of them. -/
theorem trimEnd_append {t e : List Char} (ht : ∀ c ∈ t, isTerminator c = false)
    (he : ∀ c ∈ e, isTerminator c = true) : trimEnd (t ++ e) = t := by
  have hdrop : t.reverse.dropWhile isTerminator = t.reverse := by
    cases hrev : t.reverse with
    | nil => rfl
    | cons c l =>
      have hc : c ∈ t := List.mem_reverse.1 (hrev ▸ List.mem_cons_self)
      rw [List.dropWhile_cons_of_neg (by simp [ht c hc])]
  rw [trimEnd, List.reverse_append, List.dropWhile_append_of_pos (by simpa using he), hdrop,
    List.reverse_reverse]

/-- Between two line starts stands a terminator, at the end. -/
theorem trimEnd_slice_lt {t : List Char} {start next : Nat} (hlt : start < next)
    (hnext : next ∈ startsAfter 0 t) :
    start + byteLength (trimEnd (slice start next t)) < next := by
  unfold slice
  cases hslice : slice? start next t with
  | none => exact hlt
  | some l =>
    obtain ⟨a, b, ht, hstart, hlen⟩ := slice?_eq_some hslice
    obtain ⟨a', c, b', ht', hc, hn⟩ := terminator_of_mem_startsAfter hnext
    rcases List.eq_nil_or_concat l with rfl | ⟨l', d, rfl⟩
    · simp only [byteLength_nil] at hlen
      omega
    · rw [List.concat_eq_append] at ht hlen ⊢
      -- both cuts of the text are at the same offset, so the last character is the terminator
      have hcut : (a ++ l') ++ [d] = a' ++ [c] := by
        refine eq_of_append_eq (b := b) (d := b') ?_ ?_
        · rw [List.append_assoc a, ← ht, ht', List.append_assoc, List.singleton_append]
        · rw [List.append_assoc, byteLength_append]
          omega
      obtain ⟨-, hd⟩ := List.append_inj' hcut rfl
      rw [List.singleton_inj.1 hd] at hlen ⊢
      have := byteLength_trimEnd_lt (t := l') hc
      rw [Option.getD_some]
      omega

theorem lt_of_getElem? {l : List Nat} (hl : l.Pairwise (· < ·)) {i j m n : Nat} (hij : i < j)
    (hm : l[i]? = some m) (hn : l[j]? = some n) : m < n := by
  obtain ⟨hi, rfl⟩ := List.getElem?_eq_some_iff.1 hm
  obtain ⟨hj, rfl⟩ := List.getElem?_eq_some_iff.1 hn
  exact List.pairwise_iff_getElem.1 hl i j hi hj hij

theorem starts_sorted {t : List Char} {i j m n : Nat} (hij : i < j)
    (hm : (build t).lineStart? i = some m) (hn : (build t).lineStart? j = some n) : m < n :=
  lt_of_getElem? (startsAfter_sorted 0 t) hij hm hn

/-- **The content of a line ends before the next line starts.** -/
theorem lineEnd_lt {t : List Char} {line stop next : Nat}
    (hnext : (build t).lineStart? (line + 1) = some next)
    (hstop : (build t).lineEnd? line t = some stop) : stop < next := by
  obtain ⟨start, hstart, rfl⟩ := Option.map_eq_some_iff.1 hstop
  rw [hnext, Option.getD_some]
  exact trimEnd_slice_lt (starts_sorted (Nat.lt_succ_self line) hstart hnext)
    (List.mem_of_getElem? (i := line) hnext)

/-! ## Searching line starts -/

theorem search_cons (x : Nat) (l : List Nat) (n : Nat) : search (x :: l) n =
    if x < n then
      match search l n with
      | .ok i => .ok (i + 1)
      | .error i => .error (i + 1)
    else if x = n then .ok 0 else .error 0 := by
  unfold search
  by_cases hlt : x < n
  · rw [if_pos hlt, List.takeWhile_cons_of_pos (by simpa using hlt)]
    simp only [List.length_cons, List.getElem?_cons_succ]
    split
    · rfl
    · rfl
  · rw [if_neg hlt, List.takeWhile_cons_of_neg (by simpa using hlt)]
    simp only [List.length_nil, List.getElem?_cons_zero, Option.some.injEq]

section Search

variable {l : List Nat} {n i : Nat}

/-- What a search may answer: the index of the number, or where it would keep the list ascending. -/
inductive Found (l : List Nat) (n : Nat) : Except Nat Nat → Prop where
  | exact {i : Nat} (hi : l[i]? = some n) : Found l n (.ok i)
  | insertion {i : Nat} (hn : n ∉ l) (hi : i ≤ l.length) (hbefore : ∀ m ∈ l.take i, m < n)
      (hafter : ∀ m ∈ l.drop i, n < m) : Found l n (.error i)

theorem found_search (hl : l.Pairwise (· < ·)) : Found l n (search l n) := by
  induction l with
  | nil => exact .insertion List.not_mem_nil (Nat.le_refl 0) (by simp) (by simp)
  | cons x l ih =>
    obtain ⟨hx, hl⟩ := List.pairwise_cons.1 hl
    rw [search_cons]
    rcases Nat.lt_trichotomy x n with hlt | rfl | hgt
    · rw [if_pos hlt]
      cases hs : search l n with
      | ok i =>
        cases hs ▸ ih hl with
        | exact hi => exact .exact hi
      | error i =>
        cases hs ▸ ih hl with
        | insertion hn hi hbefore hafter =>
          refine .insertion (List.not_mem_cons_of_ne_of_not_mem (Nat.ne_of_gt hlt) hn)
            (Nat.succ_le_succ hi) ?_ hafter
          rw [List.take_succ_cons]
          exact List.forall_mem_cons.2 ⟨hlt, hbefore⟩
    · rw [if_neg (Nat.lt_irrefl x), if_pos rfl]
      exact .exact rfl
    · have hafter : ∀ m ∈ x :: l, n < m :=
        List.forall_mem_cons.2 ⟨hgt, fun m hm => Nat.lt_trans hgt (hx m hm)⟩
      rw [if_neg (Nat.lt_asymm hgt), if_neg (Nat.ne_of_gt hgt)]
      exact .insertion (fun hn => Nat.lt_irrefl n (hafter n hn)) (Nat.zero_le _) (by simp) hafter

theorem Found.insertion_le {j : Nat} (hj : j ≤ l.length) (hbefore : ∀ m ∈ l.take j, m < n)
    (hafter : ∀ m ∈ l.drop i, n < m) : j ≤ i := by
  by_contra hlt
  rw [Nat.not_le] at hlt
  have hi : i < l.length := Nat.lt_of_lt_of_le hlt hj
  have hmem : l[i] ∈ l.drop i := by
    rw [List.drop_eq_getElem_cons hi]
    exact List.mem_cons_self
  have hless : l[i] < n :=
    hbefore _ (List.mem_take_iff_getElem.2 ⟨i, Nat.lt_min.2 ⟨hlt, hi⟩, rfl⟩)
  exact Nat.lt_asymm hless (hafter _ hmem)

theorem Found.unique {r r' : Except Nat Nat} (hl : l.Nodup) (hr : Found l n r)
    (hr' : Found l n r') : r = r' := by
  cases hr with
  | exact hi =>
    cases hr' with
    | exact hj =>
      obtain ⟨hi, hn⟩ := List.getElem?_eq_some_iff.1 hi
      obtain ⟨hj, hn'⟩ := List.getElem?_eq_some_iff.1 hj
      rw [(List.getElem_inj hl).1 (hn.trans hn'.symm)]
    | insertion hn => exact absurd (List.mem_of_getElem? hi) hn
  | insertion hn hi hbefore hafter =>
    cases hr' with
    | exact hj => exact absurd (List.mem_of_getElem? hj) hn
    | insertion _ hj hbefore' hafter' =>
      rw [Nat.le_antisymm (insertion_le hi hbefore hafter') (insertion_le hj hbefore' hafter)]

/-- **In an ascending list there is one answer only**, however it is searched for. -/
theorem found_iff (hl : l.Pairwise (· < ·)) {r : Except Nat Nat} :
    Found l n r ↔ r = search l n := by
  constructor
  · exact fun hr => hr.unique (hl.imp Nat.ne_of_lt) (found_search hl)
  · rintro rfl
    exact found_search hl

end Search

/-- An offset is on a line when it lies between the start of the line and the next start. -/
theorem length_takeWhile_le {l : List Nat} (hl : l.Pairwise (· < ·)) {i start offset : Nat}
    (hi : l[i]? = some start) (hle : start ≤ offset)
    (hlt : ∀ next, l[i + 1]? = some next → offset < next) :
    (l.takeWhile (· ≤ offset)).length = i + 1 := by
  induction l generalizing i with
  | nil => cases hi
  | cons x l ih =>
    obtain ⟨hx, hl⟩ := List.pairwise_cons.1 hl
    cases i with
    | zero =>
      cases hi
      rw [List.takeWhile_cons_of_pos (by simpa using hle)]
      cases l with
      | nil => rfl
      | cons y l =>
        have := hlt y rfl
        rw [List.takeWhile_cons_of_neg (by simpa using this)]
        rfl
    | succ i =>
      have hxs : x < start := hx start (List.mem_of_getElem? hi)
      rw [List.takeWhile_cons_of_pos (by simp; omega), List.length_cons, ih hl hi hlt]

theorem takeWhile_le_eq_take {l : List Nat} {i n : Nat} (hbefore : ∀ m ∈ l.take i, m < n)
    (hafter : ∀ m ∈ l.drop i, n < m) : l.takeWhile (· ≤ n) = l.take i := by
  have hrest : (l.drop i).takeWhile (· ≤ n) = [] := by
    cases hdrop : l.drop i with
    | nil => rfl
    | cons x r =>
      have hx : n < x := hafter x (hdrop ▸ List.mem_cons_self)
      rw [List.takeWhile_cons_of_neg (by simpa using hx)]
  conv => lhs; rw [← List.take_append_drop i l]
  rw [List.takeWhile_append_of_pos fun x hx => decide_eq_true (Nat.le_of_lt (hbefore x hx)), hrest,
    List.append_nil]

/-- **The line of an offset is the last one that starts at or before it.** -/
theorem lineAt_eq_length {m : LineMap} (hm : m.starts.Pairwise (· < ·)) (n : Nat) :
    m.lineAt n = (m.starts.takeWhile (· ≤ n)).length - 1 := by
  have hfound := found_search (n := n) hm
  unfold lineAt
  cases hs : search m.starts n with
  | ok i =>
    cases hs ▸ hfound with
    | exact hi =>
      have hnext : ∀ next, m.starts[i + 1]? = some next → n < next := fun next =>
        lt_of_getElem? hm (Nat.lt_succ_self i) hi
      rw [length_takeWhile_le hm hi (Nat.le_refl n) hnext, Nat.add_sub_cancel]
  | error i =>
    cases hs ▸ hfound with
    | insertion _ hi hbefore hafter =>
      rw [takeWhile_le_eq_take hbefore hafter, List.length_take, Nat.min_eq_left hi]

theorem lineAt_build (t : List Char) (n : Nat) :
    (build t).lineAt n = ((0 :: startsAfter 0 t).takeWhile (· ≤ n)).length - 1 :=
  lineAt_eq_length (startsAfter_sorted 0 t) n

/-! ## From a line to an offset and back -/

/-- **The offset of a place on a line lies on that line.** -/
theorem lineAt_offsetAt? {t : List Char} {p : Position} {offset : Nat}
    (h : (build t).offsetAt? p t = some offset) : (build t).lineAt offset = p.line := by
  obtain ⟨start, hstart, h⟩ := Option.bind_eq_some_iff.1 h
  obtain ⟨stop, hstop, h⟩ := Option.bind_eq_some_iff.1 h
  cases h
  have hle : start ≤ stop := by
    obtain ⟨start', hstart', rfl⟩ := Option.map_eq_some_iff.1 hstop
    rw [hstart] at hstart'
    cases hstart'
    exact Nat.le_add_right _ _
  have htake := byteLength_take_le p.character (slice start stop t)
  have hslice := byteLength_slice_le start stop t
  have hcount : ((0 :: startsAfter 0 t).takeWhile
      (· ≤ start + byteLength ((slice start stop t).take p.character))).length = p.line + 1 :=
    length_takeWhile_le (startsAfter_sorted 0 t) hstart (Nat.le_add_right _ _)
      fun next hnext => by have := lineEnd_lt hnext hstop; omega
  rw [lineAt_build, hcount, Nat.add_sub_cancel]

/-- A greater offset lies on the same line or on a later one. -/
theorem lineAt_mono (t : List Char) {i j : Nat} (hij : i ≤ j) :
    (build t).lineAt i ≤ (build t).lineAt j := by
  have htake (l : List Nat) : l.takeWhile (· ≤ i) = (l.takeWhile (· ≤ j)).takeWhile (· ≤ i) := by
    rw [List.takeWhile_takeWhile]
    congr 1
    funext n
    by_cases hn : n ≤ i
    · simp [hn, Nat.le_trans hn hij]
    · simp [hn]
  rw [lineAt_build, lineAt_build, htake]
  exact Nat.sub_le_sub_right (List.takeWhile_prefix _).length_le 1

/-- The first line starts at offset 0. -/
theorem lineAt_zero (t : List Char) : (build t).lineAt 0 = 0 := by
  have hcount := length_takeWhile_le (startsAfter_sorted 0 t) (i := 0) rfl (Nat.le_refl 0)
    fun next hnext => lt_of_mem_startsAfter (List.mem_of_getElem? (i := 0) hnext)
  rw [lineAt_build, hcount]

end LineMap

end ConstructorCheck.Text
