import ConstructorCheck.Proofs.Text.Newlines
import ConstructorCheck.Report.Snippet
/-!
# Displayed lines

A text is displayed line by line, and here lines end with newlines only. The number of the line that
is displayed for an offset comes from the line map, which may have counted more line ends.

* `displayLines_append` — a text is displayed line by line
* `exists_of_displayLines_cons` — the first line that is displayed, and how it ends
* `exists_of_getElem?_displayLines` — where any displayed line stands in the text
* `exists_eq_append_afterLastNewline` — where the displayed line of an offset begins
* `SourceFile.exists_shownLine?_eq` — what is displayed for an offset
* `SourceFile.add_shownLine_le` — the line that is displayed ends in the text

Carriage returns only move the displayed line down. So it lies after the newline from which the
columns are counted, and counting its bytes from there does not leave the text.
-/

namespace ConstructorCheck.Report

open Text

/-- Nothing comes before a line but complete lines. -/
def CompleteLines (p : List Char) : Prop := p = [] ∨ ∃ q, p = q ++ ['\n']

theorem displayLines_eq_nil_iff {t : List Char} : displayLines t = [] ↔ t = [] := by
  induction t with
  | nil => exact iff_of_true rfl rfl
  | cons c r ih =>
    refine iff_of_false (fun hnil => ?_) (List.cons_ne_nil c r)
    rw [displayLines] at hnil
    split at hnil
    · cases hnil
    · split at hnil
      · next hreturn =>
        rw [ih.1 hnil] at hreturn
        cases hreturn.2
      · split at hnil <;> cases hnil

/-- After a newline a new line begins. -/
theorem displayLines_newline_append (p q : List Char) :
    displayLines (p ++ '\n' :: q) = displayLines (p ++ ['\n']) ++ displayLines q := by
  induction p with
  | nil => simp [displayLines]
  | cons c r ih =>
    have hhead : (r ++ '\n' :: q).head? = (r ++ ['\n']).head? := by cases r <;> rfl
    obtain ⟨l, ls, hls⟩ := List.exists_cons_of_ne_nil
      (fun hnil => List.append_ne_nil_of_right_ne_nil r (List.cons_ne_nil '\n' [])
        (displayLines_eq_nil_iff.1 hnil) : displayLines (r ++ ['\n']) ≠ [])
    simp only [List.cons_append, displayLines, ih, hhead, hls]
    split
    · rfl
    · split
      · rfl
      · rfl

theorem length_displayLines_newline (p : List Char) :
    (displayLines (p ++ ['\n'])).length = (p ++ ['\n']).count '\n' := by
  induction p with
  | nil => rfl
  | cons c r ih =>
    obtain ⟨l, ls, hls⟩ := List.exists_cons_of_ne_nil
      (fun hnil => List.append_ne_nil_of_right_ne_nil r (List.cons_ne_nil '\n' [])
        (displayLines_eq_nil_iff.1 hnil) : displayLines (r ++ ['\n']) ≠ [])
    rw [hls] at ih
    simp only [List.cons_append, displayLines, hls, List.count_cons, ← ih]
    by_cases hc : c = '\n'
    · simp [hc]
    · rw [if_neg hc]
      split <;> simp [hc]

/-- **Complete lines are displayed as they are**, whatever follows. -/
theorem displayLines_append {p : List Char} (hp : CompleteLines p) (q : List Char) :
    displayLines (p ++ q) = displayLines p ++ displayLines q := by
  rcases hp with rfl | ⟨p, rfl⟩
  · rfl
  · rw [List.append_assoc]
    exact displayLines_newline_append p q

theorem length_displayLines {p : List Char} (hp : CompleteLines p) :
    (displayLines p).length = p.count '\n' := by
  rcases hp with rfl | ⟨p, rfl⟩
  · rfl
  · exact length_displayLines_newline p

/-- A line is no longer than the text. -/
theorem byteLength_le_of_mem_displayLines {t l : List Char} (hl : l ∈ displayLines t) :
    byteLength l ≤ byteLength t := by
  induction t generalizing l with
  | nil => cases hl
  | cons c r ih =>
    rw [displayLines] at hl
    rw [byteLength_cons]
    split at hl
    · rcases List.mem_cons.1 hl with rfl | hl
      · exact Nat.zero_le _
      · have := ih hl
        omega
    · split at hl
      · have := ih hl
        omega
      · split at hl
        · rw [List.mem_singleton.1 hl]
          simp
        · next hls =>
          rcases List.mem_cons.1 hl with rfl | hl
          · have := ih (hls ▸ List.mem_cons_self)
            rw [byteLength_cons]
            omega
          · have := ih (hls ▸ List.mem_cons_of_mem _ hl)
            omega

/-- What has no newline is not longer than what comes before a newline. -/
theorem byteLength_le_of_not_mem {l q k m : List Char} (hno : '\n' ∉ l)
    (h : l ++ q = k ++ '\n' :: m) : byteLength l ≤ byteLength k := by
  by_contra hlt
  obtain ⟨r, rfl⟩ := exists_eq_append_of_le h.symm (Nat.le_of_not_le hlt)
  rw [List.append_assoc] at h
  have hrest := List.append_cancel_left h
  cases r with
  | nil => exact hlt (by rw [List.append_nil])
  | cons c r =>
    obtain ⟨rfl, -⟩ := List.cons.inj hrest
    exact hno (by simp)

/-- How a displayed line ends: with the text, or with a newline and the return before it. -/
inductive LineEnd (line : List Char) : List Char → List Char → Prop where
  | text : LineEnd line [] []
  | newline (q : List Char) (hlast : ∀ x, line ≠ x ++ ['\r']) : LineEnd line ['\n'] q
  | returnNewline (q : List Char) : LineEnd line ['\r', '\n'] q

/-- The first line that is displayed, and how it ends in the text. -/
theorem exists_of_displayLines_cons {t line : List Char} {ls : List (List Char)}
    (ht : displayLines t = line :: ls) :
    ∃ e q, t = line ++ e ++ q ∧ LineEnd line e q ∧ '\n' ∉ line := by
  induction t generalizing line ls with
  | nil => cases ht
  | cons c r ih =>
    rw [displayLines] at ht
    split at ht
    · next hc =>
      obtain ⟨rfl, -⟩ := List.cons.inj ht
      exact ⟨['\n'], r, by rw [hc]; rfl, .newline r (by simp), List.not_mem_nil⟩
    · next hc =>
      split at ht
      · next hreturn =>
        obtain ⟨rfl, hhead⟩ := hreturn
        obtain ⟨r, rfl⟩ := List.head?_eq_some_iff.1 hhead
        obtain ⟨rfl, -⟩ := List.cons.inj ht
        exact ⟨['\r', '\n'], r, rfl, .returnNewline r, List.not_mem_nil⟩
      · next hreturn =>
        split at ht
        · next hnil =>
          obtain ⟨rfl, -⟩ := List.cons.inj ht
          rw [displayLines_eq_nil_iff.1 hnil]
          exact ⟨[], [], rfl, .text, by simpa using Ne.symm hc⟩
        · next l ls' hls =>
          obtain ⟨rfl, -⟩ := List.cons.inj ht
          obtain ⟨e, q, rfl, hends, hno⟩ := ih hls
          refine ⟨e, q, rfl, ?_, by simpa using ⟨Ne.symm hc, hno⟩⟩
          cases hends with
          | text => exact .text
          | returnNewline => exact .returnNewline q
          | newline _ hlast =>
            -- a return right before the newline would have been dropped
            refine .newline q fun x hx => ?_
            cases x with
            | nil =>
              obtain ⟨rfl, rfl⟩ := List.cons.inj hx
              exact hreturn ⟨rfl, rfl⟩
            | cons y x => exact hlast x (List.cons.inj hx).2

/-- Up to its end a line holds at most one newline, the last character. -/
theorem LineEnd.eq_nil_or_newline {line e q : List Char} (hends : LineEnd line e q)
    (hno : '\n' ∉ line) :
    (e = [] ∧ q = []) ∨ ∃ l, line ++ e = l ++ ['\n'] ∧ '\n' ∉ l := by
  cases hends with
  | text => exact Or.inl ⟨rfl, rfl⟩
  | newline => exact Or.inr ⟨line, rfl, hno⟩
  | returnNewline =>
    exact Or.inr ⟨line ++ ['\r'], by rw [List.append_assoc]; rfl, by simpa using hno⟩

/-- A line with its end goes no further than the next newline. -/
theorem LineEnd.byteLength_le {line e q k m : List Char} (hends : LineEnd line e q)
    (hno : '\n' ∉ line) (h : line ++ e ++ q = k ++ '\n' :: m) :
    byteLength (line ++ e) ≤ byteLength k + 1 := by
  rcases hends.eq_nil_or_newline hno with ⟨rfl, rfl⟩ | ⟨l, hl, hnol⟩
  · rw [List.append_nil, List.append_nil] at h
    exact absurd (h ▸ List.mem_append_right k List.mem_cons_self) hno
  · rw [hl, List.append_assoc] at h
    have hle := byteLength_le_of_not_mem hnol h
    rw [hl, byteLength_append]
    exact Nat.succ_le_succ hle

/-- A text without newlines is displayed as one line. -/
theorem displayLines_of_notMem {t : List Char} (ht : '\n' ∉ t) (hne : t ≠ []) :
    displayLines t = [t] := by
  induction t with
  | nil => exact absurd rfl hne
  | cons c r ih =>
    rw [List.mem_cons, not_or] at ht
    have hhead : r.head? ≠ some '\n' := fun hr => ht.2 (List.mem_of_mem_head? hr)
    rw [displayLines, if_neg (Ne.symm ht.1), if_neg fun h => hhead h.2]
    cases r with
    | nil => rfl
    | cons d r => rw [ih ht.2 (List.cons_ne_nil d r)]

theorem CompleteLines.append {a b : List Char} (ha : CompleteLines a) (hb : CompleteLines b) :
    CompleteLines (a ++ b) := by
  rcases hb with rfl | ⟨b, rfl⟩
  · rwa [List.append_nil]
  · exact Or.inr ⟨a ++ b, (List.append_assoc a b _).symm⟩

/-- **Where a displayed line stands in the text**: behind as many newlines as lines before it. -/
theorem exists_of_getElem?_displayLines {t line : List Char} {i : Nat}
    (hline : (displayLines t)[i]? = some line) :
    ∃ p e q, t = p ++ (line ++ e ++ q) ∧ CompleteLines p ∧ p.count '\n' = i ∧
      LineEnd line e q ∧ '\n' ∉ line ∧ line ++ e ++ q ≠ [] := by
  induction i generalizing t with
  | zero =>
    cases ht : displayLines t with
    | nil => simp [ht] at hline
    | cons first ls =>
      rw [ht, List.getElem?_cons_zero, Option.some.injEq] at hline
      subst hline
      obtain ⟨e, q, hsplit, hends, hno⟩ := exists_of_displayLines_cons ht
      refine ⟨[], e, q, hsplit, Or.inl rfl, rfl, hends, hno, fun hnil => ?_⟩
      rw [hsplit, displayLines_eq_nil_iff.2 hnil] at ht
      cases ht
  | succ i ih =>
    cases ht : displayLines t with
    | nil => simp [ht] at hline
    | cons first ls =>
      rw [ht, List.getElem?_cons_succ] at hline
      obtain ⟨e, q, rfl, hends, hno⟩ := exists_of_displayLines_cons ht
      rcases hends.eq_nil_or_newline hno with ⟨rfl, rfl⟩ | ⟨l, hl, hnol⟩
      · -- the text ends with its first line
        have hne : first ++ [] ++ [] ≠ [] := fun hnil => by
          rw [hnil] at ht
          cases ht
        rw [displayLines_of_notMem (by simpa using hno) hne] at ht
        obtain ⟨-, rfl⟩ := List.cons.inj ht
        cases hline
      · have hcomplete : CompleteLines (first ++ e) := Or.inr ⟨l, hl⟩
        have hcount : (first ++ e).count '\n' = 1 := by
          rw [hl, List.count_append, List.count_eq_zero.2 hnol]
          rfl
        have hlater : (displayLines q)[i]? = some line := by
          have hget := congrArg (fun ls => ls[i + 1]?) (displayLines_append hcomplete q)
          rwa [ht, List.getElem?_cons_succ, hline, List.getElem?_append_right
            (by rw [length_displayLines hcomplete, hcount]; omega), length_displayLines hcomplete,
            hcount, Nat.add_sub_cancel, eq_comm] at hget
        obtain ⟨p, e', q', rfl, hp, hpcount, hends', hno', hne⟩ := ih hlater
        refine ⟨first ++ e ++ p, e', q', (List.append_assoc _ p _).symm, hcomplete.append hp, ?_,
          hends', hno', hne⟩
        rw [List.count_append, hcount, hpcount, Nat.add_comm]

theorem subset_of_mem_displayLines {t line : List Char} (hline : line ∈ displayLines t) :
    line ⊆ t := by
  obtain ⟨i, hi⟩ := List.mem_iff_getElem?.1 hline
  obtain ⟨p, e, q, rfl, -⟩ := exists_of_getElem?_displayLines hi
  intro c hc
  simp [hc]

/-- What has no newline goes no further than the end of the line. -/
theorem LineEnd.le_byteLength {line e q l b : List Char} (hends : LineEnd line e q)
    (hno : '\n' ∉ line) (hl : '\n' ∉ l) (h : l ++ b = line ++ e ++ q) :
    byteLength l ≤ byteLength (line ++ e) := by
  rcases hends.eq_nil_or_newline hno with ⟨rfl, rfl⟩ | ⟨l', hl', -⟩
  · rw [← List.append_nil (line ++ []), ← h, byteLength_append]
    exact Nat.le_add_right _ _
  · rw [hl', List.append_assoc] at h
    have hle := byteLength_le_of_not_mem hl h
    rw [hl', byteLength_append]
    exact Nat.le_add_right_of_le hle

/-- A line starts after complete lines. -/
theorem CompleteLines.mem_starts {p : List Char} (hp : CompleteLines p) (q : List Char) :
    byteLength p ∈ 0 :: startsAfter 0 (p ++ q) := by
  rcases hp with rfl | ⟨p, rfl⟩
  · exact List.mem_cons_self
  · rw [List.append_assoc]
    exact List.mem_cons_of_mem _ (mem_startsAfter_append_iff.2 (Or.inl rfl))

/-- The part after the last newline comes after complete lines and holds no newline. -/
theorem exists_eq_append_afterLastNewline (a : List Char) :
    ∃ p, a = p ++ afterLastNewline a ∧ CompleteLines p ∧ '\n' ∉ afterLastNewline a := by
  refine ⟨(a.reverse.dropWhile (· ≠ '\n')).reverse, ?_, ?_, fun hmem => ?_⟩
  · rw [afterLastNewline, ← List.reverse_append, List.takeWhile_append_dropWhile,
      List.reverse_reverse]
  · cases hdrop : a.reverse.dropWhile (· ≠ '\n') with
    | nil => exact Or.inl rfl
    | cons c q =>
      have hc := List.head?_dropWhile_not (· ≠ '\n') a.reverse
      rw [hdrop, List.head?_cons] at hc
      have hc : c = '\n' := by simpa using hc
      exact Or.inr ⟨q.reverse, by rw [hc, List.reverse_cons]⟩
  · have hne := List.mem_takeWhile_imp (List.mem_reverse.1 hmem)
    simp at hne

/-- After complete lines a part without newlines is the part after the last one. -/
theorem afterLastNewline_append {p x : List Char} (hp : CompleteLines p) (hx : '\n' ∉ x) :
    afterLastNewline (p ++ x) = x := by
  have hall : ∀ c ∈ x.reverse, decide (c ≠ '\n') = true := fun c hc =>
    decide_eq_true fun heq => hx (heq ▸ List.mem_reverse.1 hc)
  rw [afterLastNewline, List.reverse_append, List.takeWhile_append_of_pos hall]
  rcases hp with rfl | ⟨p, rfl⟩
  · simp
  · simp

end ConstructorCheck.Report

namespace ConstructorCheck.SourceFile

open Report Text

variable {f : SourceFile} {start : Nat} {a b : List Char}

theorem before_eq (ht : f.text = a ++ b) : f.before (byteLength a) = a := by
  have hle : byteLength a ≤ byteLength f.text := by
    rw [ht, byteLength_append]
    omega
  have hslice := slice_append [] a b
  rw [byteLength_nil, List.nil_append] at hslice
  rw [before, Nat.min_eq_left hle, ht]
  exact hslice

/-- **What is before an offset on its line**, and the complete lines before that. -/
theorem exists_line_start (hstart : isBoundary start f.text = true) :
    ∃ p b, f.text = p ++ f.lineBefore start ++ b ∧ CompleteLines p ∧
      '\n' ∉ f.lineBefore start ∧ byteLength p + byteLength (f.lineBefore start) = start := by
  obtain ⟨a, b, ht, rfl⟩ := isBoundary_iff.1 hstart
  have hline : f.lineBefore (byteLength a) = afterLastNewline a := by
    rw [lineBefore, before_eq ht]
  obtain ⟨p, ha, hp, hno⟩ := exists_eq_append_afterLastNewline a
  rw [hline]
  refine ⟨p, b, by rw [← ha, ht], hp, hno, ?_⟩
  rw [← byteLength_append, ← ha]

/--
What is displayed for an offset comes after all complete lines before it. It is the first line after
them, unless the line map has counted other line ends.
-/
theorem exists_shownLine?_eq (hstart : isBoundary start f.text = true) :
    ∃ p b, f.text = p ++ (f.lineBefore start ++ b) ∧ CompleteLines p ∧
      '\n' ∉ f.lineBefore start ∧ byteLength p + byteLength (f.lineBefore start) = start ∧
      f.shownLine? start =
        (displayLines (f.lineBefore start ++ b))[f.lines.lineAt start - p.count '\n']? := by
  obtain ⟨p, b, ht, hp, hno, hlen⟩ := exists_line_start hstart
  have hcount : p.count '\n' ≤ f.lines.lineAt start := by
    have hle := LineMap.count_newline_le_lineAt (p ++ f.lineBefore start) b
    rwa [← ht, byteLength_append, hlen, List.count_append, List.count_eq_zero.2 hno,
      Nat.add_zero] at hle
  rw [List.append_assoc] at ht
  refine ⟨p, b, ht, hp, hno, hlen, ?_⟩
  have hshown : displayLines f.text = displayLines p ++ displayLines (f.lineBefore start ++ b) := by
    rw [← displayLines_append hp, ← ht]
  rw [shownLine?, show f.lineOf start - 1 = f.lines.lineAt start from rfl, hshown,
    List.getElem?_append_right (by rwa [length_displayLines hp]), length_displayLines hp]

/-- **The line that is displayed ends in the text**, counted from the last newline before. -/
theorem add_shownLine_le (hstart : isBoundary start f.text = true) {line : List Char}
    (hline : f.shownLine? start = some line) :
    start - byteLength (f.lineBefore start) + byteLength line ≤ byteLength f.text := by
  obtain ⟨p, b, ht, -, -, hlen, hshown⟩ := exists_shownLine?_eq hstart
  rw [hshown] at hline
  have hrest := byteLength_le_of_mem_displayLines (List.mem_of_getElem? hline)
  have htotal := congrArg byteLength ht
  rw [byteLength_append] at htotal
  omega

end ConstructorCheck.SourceFile
