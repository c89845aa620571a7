import ConstructorCheck.Text.Template
import Mathlib.Data.List.Infix
/-!
# Templates filled at once

A template is filled one argument after the other over the whole text. Here it is also filled at
once: the placeholders of the template give way to the arguments, and the arguments stand as they
are. The two agree as long as the arguments bring in no placeholder that is still ahead.

* `fillAtOnce` — the template with its own placeholders replaced
* `occurrences` — how often a pattern stands in a text
* `Inert` — the arguments bring in no placeholder
* `Replaces.number_unique` — how often a pattern was replaced shows in the result
* `replaceAll_fillAtOnce_iff` — when replacing one more placeholder fills in one more argument
* `fillFrom_eq_fillAtOnce` — the two ways of filling a template agree
* `fillFrom_append_singleton_eq_iff` — when they agree with one argument more

Both ways replace occurrences in the same text, and how many of them shows in the result
(`Replaces`). So they differ where an argument has brought in a placeholder.

A placeholder begins with an opening brace and ends with a closing one, with digits between them. So
two placeholders never overlap, and a text falls into placeholders and other characters in one way
only; all inductions go along this way (`template_induction`).
-/

namespace ConstructorCheck.Text

/-! ## Filling at once -/

/-- The number of the placeholder with which a text begins, if it is below `n`. -/
def placeholderAt? (n : Nat) (t : List Char) : Option Nat :=
  (List.range n).find? fun i => (placeholder i).isPrefixOf t

/-- The template with its own placeholders replaced by the arguments. -/
def fillAtOnce (args : List (List Char)) : List Char → List Char
  | [] => []
  | c :: r =>
    match placeholderAt? args.length (c :: r) with
    | some i => args.getD i [] ++ fillAtOnce args (r.drop ((placeholder i).length - 1))
    | none => c :: fillAtOnce args r
termination_by t => t.length
decreasing_by
  · simp only [List.length_drop, List.length_cons]; omega
  · simp

/-- How often a pattern stands in a text. -/
def occurrences (pattern : List Char) : List Char → Nat
  | [] => 0
  | c :: r => (if pattern.isPrefixOf (c :: r) then 1 else 0) + occurrences pattern r

/--
The arguments bring in no placeholder: with the arguments before it filled in, each placeholder
stands in the text no more often than in the template.
-/
def Inert (args : List (List Char)) (t : List Char) : Prop :=
  ∀ k < args.length,
    occurrences (placeholder k) (fillAtOnce (args.take k) t) ≤ occurrences (placeholder k) t

instance (args : List (List Char)) (t : List Char) : Decidable (Inert args t) :=
  inferInstanceAs (Decidable (∀ k < args.length, _))

variable {i k n : Nat} {c : Char} {a r t u : List Char} {args : List (List Char)}

/-! ## Placeholders -/

theorem placeholder_eq (i : Nat) :
    placeholder i = '\x7b' :: ((Nat.repr i).toList ++ ['\x7d']) := rfl

theorem not_isDigit_of_brace (hc : c = '\x7b' ∨ c = '\x7d') : ¬ c.isDigit = true := by
  rcases hc with rfl | rfl <;> decide

/-- A number is written with digits. -/
theorem isDigit_of_mem_repr (hc : c ∈ (Nat.repr i).toList) : c.isDigit = true := by
  rw [Nat.toList_repr] at hc
  exact Nat.isDigit_of_mem_toDigits (by decide) (by decide) hc

theorem notMem_repr (hc : c.isDigit = false) (i : Nat) : c ∉ (Nat.repr i).toList := fun hmem => by
  rw [isDigit_of_mem_repr hmem] at hc
  cases hc

/-- The number of a placeholder is written without braces. -/
theorem brace_notMem_repr (i : Nat) (hc : c = '\x7b' ∨ c = '\x7d') : c ∉ (Nat.repr i).toList :=
  notMem_repr (Bool.eq_false_iff.2 (not_isDigit_of_brace hc)) i

theorem not_placeholder_prefix_cons (hc : c ≠ '\x7b') : ¬ placeholder i <+: c :: r := by
  rw [placeholder_eq, List.cons_prefix_cons]
  exact fun h => hc h.1.symm

/-- A text begins with one placeholder at most. -/
theorem placeholder_prefix_append_iff : placeholder i <+: placeholder k ++ r ↔ i = k := by
  constructor
  · rintro ⟨q, hq⟩
    simp only [placeholder_eq, List.cons_append, List.append_assoc, List.nil_append,
      List.cons.injEq, true_and] at hq
    -- both numbers end at the first closing brace
    have hdigits (j : Nat) (s : List Char) :
        ((Nat.repr j).toList ++ '\x7d' :: s).takeWhile (· != '\x7d') = (Nat.repr j).toList := by
      rw [List.takeWhile_append_of_pos, List.takeWhile_cons_of_neg (by simp), List.append_nil]
      intro c hc
      rw [bne_iff_ne]
      rintro rfl
      exact brace_notMem_repr j (Or.inr rfl) hc
    have hrepr := hdigits i q
    rw [hq, hdigits k r, Nat.toList_repr, Nat.toList_repr] at hrepr
    have hvalue := congrArg (Nat.ofDigitChars 10 · 0) hrepr
    simp only [Nat.ofDigitChars_toDigits (b := 10) (by decide) (by decide)] at hvalue
    exact hvalue.symm
  · rintro rfl
    exact List.prefix_append _ _

theorem placeholderAt?_eq_none_iff :
    placeholderAt? n t = none ↔ ∀ i < n, ¬ placeholder i <+: t := by
  simp [placeholderAt?, List.isPrefixOf_iff_prefix]

theorem placeholderAt?_eq_some (hi : i < n) : placeholderAt? n (placeholder i ++ r) = some i := by
  cases h : placeholderAt? n (placeholder i ++ r) with
  | none => exact absurd (List.prefix_append _ _) (placeholderAt?_eq_none_iff.1 h i hi)
  | some j =>
    have hbegins : (placeholder j).isPrefixOf (placeholder i ++ r) = true :=
      List.find?_some (p := fun j => (placeholder j).isPrefixOf _) h
    rw [placeholder_prefix_append_iff.1 (List.isPrefixOf_iff_prefix.1 hbegins)]

/--
A text begins with a placeholder whose number is below `n`, or with another character, or is at its
end.
-/
@[elab_as_elim]
theorem template_induction (n : Nat) {motive : List Char → Prop} (nil : motive [])
    (hole : ∀ i r, i < n → motive r → motive (placeholder i ++ r))
    (char : ∀ c r, (∀ i < n, ¬ placeholder i <+: c :: r) → motive r → motive (c :: r))
    (t : List Char) : motive t := by
  generalize hlen : t.length = len
  induction len using Nat.strong_induction_on generalizing t with
  | _ len ih =>
    subst hlen
    cases t with
    | nil => exact nil
    | cons c r =>
      by_cases h : ∃ i < n, placeholder i <+: c :: r
      · obtain ⟨i, hi, q, hq⟩ := h
        have hlt := congrArg List.length hq
        rw [← hq]
        refine hole i q hi (ih q.length ?_ q rfl)
        rw [← hlt, List.length_append, placeholder_eq, List.length_cons]
        omega
      · push Not at h
        exact char c r h (ih r.length (Nat.lt_succ_self _) r rfl)

/-! ## Occurrences -/

theorem occurrences_cons_of_begins (h : u <+: c :: r) :
    occurrences u (c :: r) = 1 + occurrences u r := by
  rw [occurrences, if_pos (List.isPrefixOf_iff_prefix.2 h)]

theorem occurrences_cons_of_not_begins (h : ¬ u <+: c :: r) :
    occurrences u (c :: r) = occurrences u r := by
  rw [occurrences, if_neg (by rwa [List.isPrefixOf_iff_prefix]), Nat.zero_add]

theorem occurrences_le_cons (u : List Char) (c : Char) (r : List Char) :
    occurrences u r ≤ occurrences u (c :: r) := by
  rw [occurrences]
  exact Nat.le_add_left _ _

theorem occurrences_le_append (p u r : List Char) : occurrences p r ≤ occurrences p (u ++ r) := by
  induction u with
  | nil => exact Nat.le_refl _
  | cons c u ih => exact Nat.le_trans ih (occurrences_le_cons p c (u ++ r))

theorem occurrences_append_of_notMem (hu : '\x7b' ∉ u) (k : Nat) (r : List Char) :
    occurrences (placeholder k) (u ++ r) = occurrences (placeholder k) r := by
  induction u with
  | nil => rfl
  | cons c u ih =>
    rw [List.mem_cons, not_or] at hu
    rw [List.cons_append,
      occurrences_cons_of_not_begins (not_placeholder_prefix_cons (Ne.symm hu.1)), ih hu.2]

/-- A placeholder counts where it stands, and others do not. -/
theorem occurrences_placeholder_append (k i : Nat) (r : List Char) :
    occurrences (placeholder k) (placeholder i ++ r) =
      (if k = i then 1 else 0) + occurrences (placeholder k) r := by
  have hrest : occurrences (placeholder k) ((Nat.repr i).toList ++ ['\x7d'] ++ r) =
      occurrences (placeholder k) r := by
    refine occurrences_append_of_notMem (fun hmem => ?_) k r
    rcases List.mem_append.1 hmem with hmem | hmem
    · exact brace_notMem_repr i (Or.inl rfl) hmem
    · exact absurd hmem (by decide)
  have hbegins := placeholder_prefix_append_iff (i := k) (k := i) (r := r)
  rw [placeholder_eq i, List.cons_append] at hbegins ⊢
  by_cases hki : k = i
  · rw [if_pos hki, occurrences_cons_of_begins (hbegins.2 hki), hrest]
  · rw [if_neg hki, occurrences_cons_of_not_begins (mt hbegins.1 hki), hrest, Nat.zero_add]

/-- A pattern does not reach over a character that it lacks. -/
theorem prefix_append_cons_iff {p : List Char} (hc : c ∉ p) : p <+: u ++ c :: r ↔ p <+: u := by
  refine ⟨fun h => ?_, fun h => h.trans (List.prefix_append _ _)⟩
  rcases List.prefix_or_prefix_of_prefix h (List.prefix_append u (c :: r)) with hpu | ⟨q, rfl⟩
  · exact hpu
  · cases q with
    | nil => rw [List.append_nil]
    | cons d q =>
      rw [List.prefix_append_right_inj, List.cons_prefix_cons] at h
      exact absurd (List.mem_append_right u (h.1 ▸ List.mem_cons_self)) hc

/-- Occurrences do not reach over a character that the pattern lacks. -/
theorem occurrences_append_cons {p : List Char} (hc : c ∉ p) (hp : p ≠ []) (u r : List Char) :
    occurrences p (u ++ c :: r) = occurrences p u + occurrences p r := by
  induction u with
  | nil =>
    have hnot : ¬ p <+: c :: r := fun h =>
      hp (List.prefix_nil.1 ((prefix_append_cons_iff (u := []) hc).1 h))
    rw [List.nil_append, occurrences_cons_of_not_begins hnot, occurrences, Nat.zero_add]
  | cons d u ih =>
    have hbegins := prefix_append_cons_iff (u := d :: u) (r := r) hc
    rw [List.cons_append] at hbegins ⊢
    by_cases h : p <+: d :: u
    · rw [occurrences_cons_of_begins (hbegins.2 h), occurrences_cons_of_begins h, ih, Nat.add_assoc]
    · rw [occurrences_cons_of_not_begins (mt hbegins.1 h), occurrences_cons_of_not_begins h, ih]

/-! ## Some occurrences replaced -/

/-- The second text is the first one with so many occurrences of the pattern replaced. -/
inductive Replaces (p new : List Char) : Nat → List Char → List Char → Prop where
  | nil : Replaces p new 0 [] []
  | keep {n : Nat} {x y : List Char} (c : Char) (h : Replaces p new n x y) :
    Replaces p new n (c :: x) (c :: y)
  | replace {n : Nat} {x y : List Char} (h : Replaces p new n x y) :
    Replaces p new (n + 1) (p ++ x) (new ++ y)

/-- The number of places at which two texts differ. -/
def mismatches (x y : List Char) : Nat := (x.zip y).countP fun q => q.1 != q.2

theorem eq_of_mismatches_eq_zero {x y : List Char} (hlen : x.length = y.length)
    (h : mismatches x y = 0) : x = y := by
  refine List.ext_getElem hlen fun i hx hy => ?_
  have hmem : (x[i], y[i]) ∈ x.zip y := by
    rw [← List.getElem_zip (h := by simp; omega)]
    exact List.getElem_mem _
  simpa using List.countP_eq_zero.1 h _ hmem

namespace Replaces

variable {p new x y : List Char} {m : Nat}

theorem append (h : Replaces p new n x y) (u : List Char) : Replaces p new n (u ++ x) (u ++ y) := by
  induction u with
  | nil => exact h
  | cons c u ih => exact ih.keep c

theorem eq_of_self (h : Replaces p p n x y) : x = y := by
  induction h with
  | nil => rfl
  | keep c _ ih => rw [ih]
  | replace _ ih => rw [ih]

/-- Each replacement changes the length by as much. -/
theorem length_add (h : Replaces p new n x y) :
    y.length + n * p.length = x.length + n * new.length := by
  induction h with
  | nil => rw [Nat.zero_mul, Nat.zero_mul]
  | keep c _ ih => rw [List.length_cons, List.length_cons]; omega
  | replace _ ih =>
    rw [List.length_append, List.length_append, Nat.add_one_mul, Nat.add_one_mul]
    omega

/-- Each replacement by a text of the same length changes as many places. -/
theorem mismatches_eq (h : Replaces p new n x y) (hlen : p.length = new.length) :
    mismatches x y = n * mismatches p new := by
  induction h with
  | nil => rw [Nat.zero_mul]; rfl
  | keep c _ ih => simpa [mismatches] using ih
  | replace _ ih =>
    rw [mismatches, List.zip_append hlen, List.countP_append, Nat.add_one_mul, Nat.add_comm]
    exact congrArg (· + _) ih

/-- **How often a pattern was replaced shows in the result**, unless it was replaced by itself. -/
theorem number_unique (h : Replaces p new m x y) (h' : Replaces p new n x y) (hne : p ≠ new) :
    m = n := by
  by_cases hlen : p.length = new.length
  · have hpos : 0 < mismatches p new :=
      Nat.pos_of_ne_zero fun hzero => hne (eq_of_mismatches_eq_zero hlen hzero)
    have hmismatches := (h.mismatches_eq hlen).symm.trans (h'.mismatches_eq hlen)
    exact Nat.eq_of_mul_eq_mul_right hpos hmismatches
  · have hm := h.length_add
    have hn := h'.length_add
    -- each replacement moves the end by the difference of the two lengths
    rcases Nat.lt_or_gt_of_ne hlen with hlt | hlt
    · obtain ⟨d, hd⟩ := Nat.exists_eq_add_of_lt hlt
      rw [hd, Nat.add_assoc, Nat.mul_add] at hm hn
      have hpos : 0 < d + 1 := Nat.succ_pos d
      exact Nat.eq_of_mul_eq_mul_right hpos (by omega)
    · obtain ⟨d, hd⟩ := Nat.exists_eq_add_of_lt hlt
      rw [hd, Nat.add_assoc, Nat.mul_add] at hm hn
      have hpos : 0 < d + 1 := Nat.succ_pos d
      exact Nat.eq_of_mul_eq_mul_right hpos (by omega)

end Replaces

/-! ## Replacing -/

theorem replaceAll_cons_of_not_begins {p : List Char} (h : ¬ p <+: c :: r) (a : List Char) :
    replaceAll p a (c :: r) = c :: replaceAll p a r := by
  rw [replaceAll, if_neg (by rwa [List.isPrefixOf_iff_prefix])]

/-- Nothing is replaced in a text that lacks a character of the pattern. -/
theorem replaceAll_of_notMem {p : List Char} (hc : c ∈ p) (ht : c ∉ t) (a : List Char) :
    replaceAll p a t = t := by
  induction t with
  | nil => rw [replaceAll]
  | cons d r ih =>
    rw [replaceAll_cons_of_not_begins (fun h => ht (h.subset hc)),
      ih fun hr => ht (List.mem_cons_of_mem d hr)]

theorem replaceAll_placeholder_append (k : Nat) (a r : List Char) :
    replaceAll (placeholder k) a (placeholder k ++ r) = a ++ replaceAll (placeholder k) a r := by
  have hbegins := List.isPrefixOf_iff_prefix.2 (List.prefix_append (placeholder k) r)
  have hdrop : ((Nat.repr k).toList ++ ['\x7d'] ++ r).drop ((placeholder k).length - 1) = r := by
    rw [placeholder_eq, List.length_cons, Nat.add_sub_cancel, List.drop_left]
  rw [placeholder_eq k, List.cons_append] at hbegins ⊢
  rw [replaceAll, if_pos hbegins, ← placeholder_eq, hdrop]

/-- Where the pattern begins nowhere, the text stays. -/
theorem replaceAll_append_of_occurrences {p : List Char}
    (h : occurrences p (u ++ r) ≤ occurrences p r) (a : List Char) :
    replaceAll p a (u ++ r) = u ++ replaceAll p a r := by
  induction u with
  | nil => rfl
  | cons c u ih =>
    rw [List.cons_append] at h ⊢
    have hle := occurrences_le_append p u r
    have hnot : ¬ p <+: c :: (u ++ r) := by
      intro hbegins
      rw [occurrences_cons_of_begins hbegins] at h
      omega
    rw [occurrences_cons_of_not_begins hnot] at h
    rw [replaceAll_cons_of_not_begins hnot, ih h, List.cons_append]

/-- A placeholder of another number stays. -/
theorem replaceAll_placeholder_append_of_ne (hik : k ≠ i) (a r : List Char) :
    replaceAll (placeholder k) a (placeholder i ++ r) =
      placeholder i ++ replaceAll (placeholder k) a r := by
  refine replaceAll_append_of_occurrences ?_ a
  rw [occurrences_placeholder_append, if_neg hik, Nat.zero_add]

/-- Replacing all occurrences replaces as many as there are. -/
theorem replaces_replaceAll (k : Nat) (a t : List Char) :
    Replaces (placeholder k) a (occurrences (placeholder k) t) t
      (replaceAll (placeholder k) a t) := by
  induction t using template_induction (k + 1) with
  | nil => rw [replaceAll]; exact .nil
  | hole i r hi ih =>
    rw [occurrences_placeholder_append]
    by_cases hik : k = i
    · subst hik
      rw [if_pos rfl, Nat.add_comm, replaceAll_placeholder_append]
      exact ih.replace
    · rw [if_neg hik, Nat.zero_add, replaceAll_placeholder_append_of_ne hik]
      exact ih.append _
  | char c r hnot ih =>
    have hk := hnot k (Nat.lt_succ_self k)
    rw [replaceAll_cons_of_not_begins hk, occurrences_cons_of_not_begins hk]
    exact ih.keep c

/-! ## One argument more -/

theorem fillAtOnce_cons (h : ∀ i < args.length, ¬ placeholder i <+: c :: r) :
    fillAtOnce args (c :: r) = c :: fillAtOnce args r := by
  rw [fillAtOnce, placeholderAt?_eq_none_iff.2 h]

theorem fillAtOnce_placeholder_append (hi : args[i]? = some a) :
    fillAtOnce args (placeholder i ++ r) = a ++ fillAtOnce args r := by
  have hat := placeholderAt?_eq_some (r := r) (List.getElem?_eq_some_iff.1 hi).1
  have hdrop : ((Nat.repr i).toList ++ ['\x7d'] ++ r).drop ((placeholder i).length - 1) = r := by
    rw [placeholder_eq, List.length_cons, Nat.add_sub_cancel, List.drop_left]
  rw [placeholder_eq, List.cons_append] at hat ⊢
  rw [fillAtOnce, hat]
  simp only [hdrop, List.getD_eq_getElem?_getD, hi, Option.getD_some]

theorem fillAtOnce_append_of_notMem (hu : '\x7b' ∉ u) (args : List (List Char)) (r : List Char) :
    fillAtOnce args (u ++ r) = u ++ fillAtOnce args r := by
  induction u with
  | nil => rfl
  | cons c u ih =>
    rw [List.mem_cons, not_or] at hu
    rw [List.cons_append,
      fillAtOnce_cons fun i _ => not_placeholder_prefix_cons (Ne.symm hu.1), ih hu.2,
      List.cons_append]

/-- A placeholder without an argument stays. -/
theorem fillAtOnce_placeholder_append_of_le (hi : args.length ≤ i) (r : List Char) :
    fillAtOnce args (placeholder i ++ r) = placeholder i ++ fillAtOnce args r := by
  have hrest : '\x7b' ∉ (Nat.repr i).toList ++ ['\x7d'] := by
    intro hmem
    rcases List.mem_append.1 hmem with hmem | hmem
    · exact brace_notMem_repr i (Or.inl rfl) hmem
    · exact absurd hmem (by decide)
  have hnot (j : Nat) (hj : j < args.length) : ¬ placeholder j <+: placeholder i ++ r := by
    rw [placeholder_prefix_append_iff]
    omega
  rw [placeholder_eq i, List.cons_append] at hnot ⊢
  rw [fillAtOnce_cons hnot, fillAtOnce_append_of_notMem hrest, List.cons_append]

/-- Where no placeholder of an argument stands, the text stays. -/
theorem fillAtOnce_of_occurrences (h : ∀ i < args.length, occurrences (placeholder i) t = 0) :
    fillAtOnce args t = t := by
  induction t with
  | nil => rw [fillAtOnce]
  | cons c r ih =>
    have hnot (i : Nat) (hi : i < args.length) : ¬ placeholder i <+: c :: r := by
      intro hbegins
      have := h i hi
      rw [occurrences_cons_of_begins hbegins] at this
      omega
    rw [fillAtOnce_cons hnot, ih fun i hi => ?_]
    rw [← occurrences_cons_of_not_begins (hnot i hi)]
    exact h i hi

@[simp] theorem fillAtOnce_nil_args (t : List Char) : fillAtOnce [] t = t :=
  fillAtOnce_of_occurrences fun _ hi => absurd hi (Nat.not_lt_zero _)

/-- Filling in arguments leaves the placeholders of later ones where they are. -/
theorem occurrences_le_fillAtOnce (args : List (List Char)) (t : List Char) :
    occurrences (placeholder args.length) t ≤
      occurrences (placeholder args.length) (fillAtOnce args t) := by
  induction t using template_induction (args.length + 1) with
  | nil => exact Nat.zero_le _
  | hole i r hi ih =>
    rw [occurrences_placeholder_append]
    by_cases hlast : args.length = i
    · rw [fillAtOnce_placeholder_append_of_le (Nat.le_of_eq hlast), occurrences_placeholder_append]
      exact Nat.add_le_add_left ih _
    · have hlt : i < args.length := by omega
      rw [if_neg hlast, Nat.zero_add,
        fillAtOnce_placeholder_append (List.getElem?_eq_getElem hlt)]
      exact Nat.le_trans ih (occurrences_le_append _ _ _)
  | char c r hnot ih =>
    rw [occurrences_cons_of_not_begins (hnot args.length (Nat.lt_succ_self _)),
      fillAtOnce_cons fun i hi => hnot i (Nat.lt_succ_of_lt hi)]
    exact Nat.le_trans ih (occurrences_le_cons _ _ _)

/--
**Replacing one more placeholder throughout the text** fills in one more argument, as long as the
arguments before it have not brought in that placeholder.
-/
theorem fillAtOnce_append_singleton (a : List Char)
    (h : occurrences (placeholder args.length) (fillAtOnce args t) ≤
      occurrences (placeholder args.length) t) :
    replaceAll (placeholder args.length) a (fillAtOnce args t) = fillAtOnce (args ++ [a]) t := by
  induction t using template_induction (args.length + 1) with
  | nil => rw [fillAtOnce, fillAtOnce, replaceAll]
  | hole i r hi ih =>
    rw [occurrences_placeholder_append] at h
    have hle := occurrences_le_fillAtOnce args r
    by_cases hlast : args.length = i
    · subst hlast
      rw [fillAtOnce_placeholder_append_of_le (Nat.le_refl _)] at h ⊢
      rw [occurrences_placeholder_append] at h
      rw [replaceAll_placeholder_append, ih (by omega),
        fillAtOnce_placeholder_append (a := a) (by simp)]
    · have hlt : i < args.length := by omega
      have hget := List.getElem?_eq_getElem hlt
      rw [if_neg hlast, Nat.zero_add, fillAtOnce_placeholder_append hget] at h
      have hgrow := occurrences_le_append (placeholder args.length) args[i] (fillAtOnce args r)
      rw [fillAtOnce_placeholder_append hget,
        replaceAll_append_of_occurrences (Nat.le_trans h hle), ih (Nat.le_trans hgrow h),
        fillAtOnce_placeholder_append (by rw [List.getElem?_append_left hlt, hget])]
  | char c r hnot ih =>
    have hle := occurrences_le_fillAtOnce args r
    have hlast := hnot args.length (Nat.lt_succ_self _)
    rw [fillAtOnce_cons fun i hi => hnot i (Nat.lt_succ_of_lt hi)] at h ⊢
    rw [occurrences_cons_of_not_begins hlast] at h
    have hfilled : ¬ placeholder args.length <+: c :: fillAtOnce args r := by
      intro hbegins
      rw [occurrences_cons_of_begins hbegins] at h
      omega
    rw [occurrences_cons_of_not_begins hfilled] at h
    rw [replaceAll_cons_of_not_begins hfilled, ih h,
      fillAtOnce_cons fun i hi => hnot i (by simpa using hi)]

/-- One argument more replaces the occurrences of its placeholder in the template. -/
theorem replaces_fillAtOnce (args : List (List Char)) (a t : List Char) :
    Replaces (placeholder args.length) a (occurrences (placeholder args.length) t)
      (fillAtOnce args t) (fillAtOnce (args ++ [a]) t) := by
  induction t using template_induction (args.length + 1) with
  | nil => rw [fillAtOnce, fillAtOnce]; exact .nil
  | hole i r hi ih =>
    rw [occurrences_placeholder_append]
    by_cases hlast : args.length = i
    · subst hlast
      rw [if_pos rfl, Nat.add_comm, fillAtOnce_placeholder_append_of_le (Nat.le_refl _),
        fillAtOnce_placeholder_append (a := a) (by simp)]
      exact ih.replace
    · have hlt : i < args.length := by omega
      have hget := List.getElem?_eq_getElem hlt
      rw [if_neg hlast, Nat.zero_add, fillAtOnce_placeholder_append hget,
        fillAtOnce_placeholder_append (by rw [List.getElem?_append_left hlt, hget])]
      exact ih.append _
  | char c r hnot ih =>
    rw [occurrences_cons_of_not_begins (hnot args.length (Nat.lt_succ_self _)),
      fillAtOnce_cons fun i hi => hnot i (Nat.lt_succ_of_lt hi),
      fillAtOnce_cons fun i hi => hnot i (by simpa using hi)]
    exact ih.keep c

/--
**When replacing one more placeholder throughout the text fills in one more argument**: when the
arguments before it have not brought in that placeholder, or it stands for itself.
-/
theorem replaceAll_fillAtOnce_iff :
    replaceAll (placeholder args.length) a (fillAtOnce args t) = fillAtOnce (args ++ [a]) t ↔
      occurrences (placeholder args.length) (fillAtOnce args t) ≤
        occurrences (placeholder args.length) t ∨ placeholder args.length = a := by
  have hall := replaces_replaceAll args.length a (fillAtOnce args t)
  have hown := replaces_fillAtOnce args a t
  constructor
  · intro heq
    rw [heq] at hall
    rw [or_iff_not_imp_right]
    exact fun hne => Nat.le_of_eq (hall.number_unique hown hne)
  · rintro (hle | rfl)
    · exact fillAtOnce_append_singleton a hle
    · exact hall.eq_of_self.symm.trans hown.eq_of_self

/-! ## All arguments -/

/-- The arguments so far are filled in, and the others follow one by one. -/
theorem fillFrom_fillAtOnce {rest : List (List Char)} (h : Inert (args ++ rest) t) :
    fillFrom args.length (fillAtOnce args t) rest = fillAtOnce (args ++ rest) t := by
  induction rest generalizing args with
  | nil => rw [fillFrom, List.append_nil]
  | cons a rest ih =>
    have hnext := h args.length (by simp)
    rw [List.take_left] at hnext
    rw [List.append_cons] at h ⊢
    rw [fillFrom, fillAtOnce_append_singleton a hnext, ← ih h, List.length_append,
      List.length_singleton]

/-- **Filling one argument after the other is filling at once** when the arguments are inert. -/
theorem fillFrom_eq_fillAtOnce (h : Inert args t) : fillFrom 0 t args = fillAtOnce args t := by
  have hnone : Inert ([] ++ args) t := h
  have hfill := fillFrom_fillAtOnce hnone
  rwa [fillAtOnce_nil_args] at hfill

theorem fillFrom_append_singleton (i : Nat) (t : List Char) (args : List (List Char))
    (a : List Char) : fillFrom i t (args ++ [a]) =
      replaceAll (placeholder (i + args.length)) a (fillFrom i t args) := by
  induction args generalizing i t with
  | nil => rfl
  | cons b args ih =>
    rw [List.cons_append, fillFrom, ih, fillFrom, List.length_cons, Nat.add_right_comm,
      Nat.add_assoc]

/--
**With one argument more behind inert ones**, the two ways agree unless these bring in the last
placeholder and it does not stand for itself.
-/
theorem fillFrom_append_singleton_eq_iff (h : Inert args t) :
    fillFrom 0 t (args ++ [a]) = fillAtOnce (args ++ [a]) t ↔
      occurrences (placeholder args.length) (fillAtOnce args t) ≤
        occurrences (placeholder args.length) t ∨ placeholder args.length = a := by
  rw [fillFrom_append_singleton, Nat.zero_add, fillFrom_eq_fillAtOnce h, replaceAll_fillAtOnce_iff]

theorem toList_fill (template : String) (args : List String) :
    (fill template args).toList = fillFrom 0 template.toList (args.map (·.toList)) :=
  String.toList_ofList

/-- A single argument has no other placeholder ahead. -/
theorem inert_singleton (a t : List Char) : Inert [a] t := by
  intro k hk
  rw [Nat.lt_one_iff.1 hk, List.take_zero, fillAtOnce_nil_args]

end ConstructorCheck.Text
