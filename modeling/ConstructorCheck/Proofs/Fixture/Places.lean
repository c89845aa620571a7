import ConstructorCheck.Fixture.Checked
import ConstructorCheck.Proofs.Fixture.Program
import ConstructorCheck.Proofs.Text.Positions
/-!
# The spans of places

A place has a span when it counts from 1, when its line exists, and when its end is an offset. The
span starts at the character of the place, or at the end of the line when the line is shorter, and
its start is on the line of the place again.

* `Place.StartsAt` — where the span of a place starts, read off the lines of the text
* `SourceFile.span_eq_ok_iff` — which places have which spans
* `SourceFile.checkedSpan?_eq` — no step on the way to a span overflows
* `SourceFile.span_spec` — all of it

The sums are sums of the length of the text before a line and of a part of that line, so they stay
within the text.
-/

namespace ConstructorCheck

open Text

/-! ## Where a place starts -/

/--
The offset that a place leads to: that of the character in its column, or that of the end of its
line when the line has no such column.
-/
inductive Place.StartsAt (p : Place) (lines : List Line) : Nat → Prop where
  | character {i : Nat} {l : Line} {before after : List Char} {c : Char} (hline : p.line = i + 1)
      (hl : lines[i]? = some l) (hcontent : l.content = before ++ c :: after)
      (hcolumn : p.column = before.length + 1) :
    StartsAt p lines (byteLength (textBefore lines i ++ before))
  | lineEnd {i : Nat} {l : Line} (hline : p.line = i + 1) (hl : lines[i]? = some l)
      (hcolumn : l.content.length < p.column) :
    StartsAt p lines (byteLength (textBefore lines i ++ l.content))

variable {p : Place} {lines : List Line} {t : List Char} {n : Nat}

/-- In both cases the span starts after the characters of the columns before. -/
theorem Place.startsAt_iff : p.StartsAt lines n ↔ ∃ i l, p.line = i + 1 ∧ 1 ≤ p.column ∧
    lines[i]? = some l ∧ n = byteLength (textBefore lines i ++ l.content.take (p.column - 1)) := by
  constructor
  · intro h
    cases h with
    | @character i l before after c hline hl hcontent hcolumn =>
      refine ⟨i, l, hline, by omega, hl, ?_⟩
      rw [hcontent, hcolumn, Nat.add_sub_cancel, List.take_left]
    | @lineEnd i l hline hl hcolumn =>
      refine ⟨i, l, hline, by omega, hl, ?_⟩
      rw [List.take_of_length_le (by omega)]
  · rintro ⟨i, l, hline, hcolumn, hl, rfl⟩
    by_cases hlong : l.content.length < p.column
    · rw [List.take_of_length_le (by omega)]
      exact .lineEnd hline hl hlong
    · have hlt : p.column - 1 < l.content.length := by omega
      have hcontent : l.content = l.content.take (p.column - 1) ++
          l.content[p.column - 1] :: l.content.drop (p.column - 1 + 1) := by
        rw [← List.drop_eq_getElem_cons hlt, List.take_append_drop]
      refine .character hline hl hcontent ?_
      rw [List.length_take]
      omega

theorem Place.exists_startsAt_iff : (∃ n, p.StartsAt lines n) ↔
    1 ≤ p.line ∧ 1 ≤ p.column ∧ p.line ≤ lines.length := by
  simp only [Place.startsAt_iff]
  constructor
  · rintro ⟨n, i, l, hline, hcolumn, hl, -⟩
    have hi := (List.getElem?_eq_some_iff.1 hl).1
    exact ⟨by omega, hcolumn, by omega⟩
  · rintro ⟨hline, hcolumn, hle⟩
    have hi : p.line - 1 < lines.length := by omega
    exact ⟨_, p.line - 1, lines[p.line - 1], by omega, hcolumn, List.getElem?_eq_getElem hi, rfl⟩

/-- The offset of a place is the one that its line and column have in the line map. -/
theorem Place.startsAt_iff_offsetAt? (h : FallsInto t lines) :
    p.StartsAt lines n ↔ (1 ≤ p.line ∧ 1 ≤ p.column) ∧
      (LineMap.build t).offsetAt? ⟨p.line - 1, p.column - 1⟩ t = some n := by
  rw [Place.startsAt_iff]
  constructor
  · rintro ⟨i, l, hline, hcolumn, hl, rfl⟩
    refine ⟨⟨by omega, hcolumn⟩, ?_⟩
    rw [hline, Nat.add_sub_cancel]
    exact h.offsetAt?_eq hl _
  · rintro ⟨⟨hline, hcolumn⟩, hoffset⟩
    obtain ⟨start, hstart, -⟩ := Option.bind_eq_some_iff.1 hoffset
    rw [h.lineStart?_eq] at hstart
    obtain ⟨l, hl, -⟩ := Option.map_eq_some_iff.1 hstart
    rw [h.offsetAt?_eq hl, Option.some.injEq] at hoffset
    exact ⟨p.line - 1, l, by omega, hcolumn, hl, hoffset.symm⟩

/-- A place leads to its own line, not beyond the content. -/
theorem Place.StartsAt.exists_within (hn : p.StartsAt lines n) : ∃ l,
    lines[p.line - 1]? = some l ∧ byteLength (textBefore lines (p.line - 1)) ≤ n ∧
      n ≤ byteLength (textBefore lines (p.line - 1) ++ l.content) := by
  obtain ⟨i, l, hline, -, hl, rfl⟩ := Place.startsAt_iff.1 hn
  rw [hline, Nat.add_sub_cancel]
  refine ⟨l, hl, byteLength_le_of_prefix (List.prefix_append _ _), ?_⟩
  rw [byteLength_append, byteLength_append]
  exact Nat.add_le_add_left (byteLength_take_le _ _) _

/-! ## Line maps with checked numbers -/

theorem checkedNumber?_eq (hn : n ≤ maxOffset) : checkedNumber? n = some n := if_pos hn

namespace Text.LineMap

/-- No line starts behind the end of the text. -/
theorem checkedBuild?_eq (ht : byteLength t ≤ maxOffset) : checkedBuild? t = some (build t) := by
  have hstarts : (build t).starts.mapM checkedNumber? = some (build t).starts := by
    refine mapM_eq_some_iff.2 (List.map_congr_left fun n hn => checkedNumber?_eq ?_)
    obtain ⟨i, hi⟩ := List.mem_iff_getElem?.1 hn
    exact Nat.le_trans (le_of_isBoundary (isBoundary_lineStart? hi)) ht
  rw [checkedBuild?, hstarts, checkedNumber?_eq ht]
  rfl

theorem lineEnd?_le {line stop : Nat} (hstop : (build t).lineEnd? line t = some stop) :
    stop ≤ byteLength t := by
  obtain ⟨lines, h⟩ := exists_fallsInto t
  obtain ⟨start, hstart, -⟩ := Option.map_eq_some_iff.1 hstop
  rw [h.lineStart?_eq] at hstart
  obtain ⟨l, hl, -⟩ := Option.map_eq_some_iff.1 hstart
  rw [h.lineEnd?_eq hl, Option.some.injEq] at hstop
  have htext := congrArg byteLength (h.eq_append hl)
  simp only [Line.text, byteLength_append] at htext hstop
  omega

/-- The end of a line lies within the text, and so does every part of the way to it. -/
theorem checkedLineEnd?_eq (ht : byteLength t ≤ maxOffset) {line : Nat} (hline : line < maxOffset) :
    (build t).checkedLineEnd? line t = some ((build t).lineEnd? line t) := by
  rw [checkedLineEnd?]
  cases hstart : (build t).lineStart? line with
  | none => rw [lineEnd?, hstart, Option.map_none]
  | some start =>
    have hend : (build t).lineEnd? line t = some (start + byteLength (trimEnd
        (slice start (((build t).lineStart? (line + 1)).getD (build t).size) t))) := by
      rw [lineEnd?, hstart, Option.map_some]
    have hle := Nat.le_trans (lineEnd?_le hend) ht
    have hnext : checkedAdd? line 1 = some (line + 1) := if_pos hline
    simp only [hnext, Option.bind_eq_bind, Option.bind_some]
    rw [checkedNumber?_eq (Nat.le_trans (Nat.le_add_left _ _) hle), Option.bind_some, checkedAdd?,
      if_pos hle, hend]
    rfl

theorem checkedOffsetAt?_eq (ht : byteLength t ≤ maxOffset) {q : Position}
    (hline : q.line < maxOffset) :
    (build t).checkedOffsetAt? q t = some ((build t).offsetAt? q t) := by
  rw [checkedOffsetAt?]
  cases hstart : (build t).lineStart? q.line with
  | none =>
    rw [offsetAt?, hstart]
    rfl
  | some start =>
    cases hstop : (build t).lineEnd? q.line t with
    | none =>
      rw [lineEnd?, hstart] at hstop
      cases hstop
    | some stop =>
      have hoffset : (build t).offsetAt? q t =
          some (start + byteLength ((slice start stop t).take q.character)) := by
        rw [offsetAt?, hstart, hstop]
        rfl
      have hle := Nat.le_trans (le_of_isBoundary (isBoundary_offsetAt? hoffset)) ht
      simp only [checkedLineEnd?_eq ht hline, hstop, Option.bind_eq_bind, Option.bind_some]
      rw [checkedNumber?_eq (Nat.le_trans (Nat.le_add_left _ _) hle), Option.bind_some, checkedAdd?,
        if_pos hle, hoffset]
      rfl

end Text.LineMap

/-! ## The spans of places -/

namespace SourceFile

variable {f : SourceFile} {s : Span}

/-- **The span of a place** starts where the place leads to, and ends within the offsets. -/
theorem span_eq_ok_iff (h : FallsInto f.text lines) : f.span p = .ok s ↔
    ∃ start, p.StartsAt lines start ∧ start + p.length ≤ maxOffset ∧
      s = ⟨0, start, start + p.length⟩ := by
  simp only [Place.startsAt_iff_offsetAt? h]
  rw [span, SourceFile.lines]
  by_cases hpos : p.line = 0 ∨ p.column = 0
  · rw [if_pos hpos]
    refine iff_of_false (by simp) ?_
    rintro ⟨_, ⟨hone, _⟩, _⟩
    omega
  · rw [if_neg hpos]
    have hone : 1 ≤ p.line ∧ 1 ≤ p.column := by omega
    cases hstart : (LineMap.build f.text).offsetAt? ⟨p.line - 1, p.column - 1⟩ f.text with
    | none =>
      refine iff_of_false (by simp) ?_
      rintro ⟨_, ⟨_, hsome⟩, _⟩
      cases hsome
    | some start =>
      by_cases hend : start + p.length ≤ maxOffset
      · simp [hone, hend, eq_comm]
      · simp [hend]

/-- **No step on the way to a span overflows.** -/
theorem checkedSpan?_eq (hf : byteLength f.text ≤ maxOffset) (hp : p.line ≤ maxOffset) :
    f.checkedSpan? p = some (f.span p) := by
  rw [checkedSpan?, span]
  by_cases hpos : p.line = 0 ∨ p.column = 0
  · rw [if_pos hpos, if_pos hpos]
  · rw [if_neg hpos, if_neg hpos]
    have hline : checkedSub? p.line 1 = some (p.line - 1) := if_pos (by omega)
    have hcolumn : checkedSub? p.column 1 = some (p.column - 1) := if_pos (by omega)
    have hlt : p.line - 1 < maxOffset := by omega
    simp only [LineMap.checkedBuild?_eq hf, hline, hcolumn, Option.bind_eq_bind, Option.bind_some,
      LineMap.checkedOffsetAt?_eq hf (q := ⟨p.line - 1, p.column - 1⟩) hlt, SourceFile.lines]
    cases (LineMap.build f.text).offsetAt? ⟨p.line - 1, p.column - 1⟩ f.text with
    | none => rfl
    | some start =>
      by_cases hend : start + p.length ≤ maxOffset
      · simp only [checkedAdd?, if_pos hend]
        rfl
      · simp only [checkedAdd?, if_neg hend]
        rfl

/--
**Which places have spans, and which spans.** Let the text and the line number be within the offsets
of 32 bits. A place has a span when its line and column count from 1, its line exists, and its end
is an offset; it leads to the character in its column, or to the end of its line. The span covers
the length of the place from there on. It starts between two characters, within the content of the
line, and on the line of the place when that is looked up again. Nothing overflows on the way there
and back.
-/
theorem span_spec (hf : byteLength f.text ≤ maxOffset) (hp : p.line ≤ maxOffset) :
    ∃ lines, FallsInto f.text lines ∧ lines.length = f.lines.lineCount ∧
      ((∃ s, f.span p = .ok s) ↔ 1 ≤ p.line ∧ 1 ≤ p.column ∧ p.line ≤ f.lines.lineCount ∧
        ∀ start, p.StartsAt lines start → start + p.length ≤ maxOffset) ∧
      (∀ s, f.span p = .ok s → p.StartsAt lines s.start ∧
        s = ⟨0, s.start, s.start + p.length⟩ ∧ isBoundary s.start f.text = true ∧
        (∃ l, lines[p.line - 1]? = some l ∧
          byteLength (textBefore lines (p.line - 1)) ≤ s.start ∧
          s.start ≤ byteLength (textBefore lines (p.line - 1) ++ l.content)) ∧
        f.lineOf s.start = p.line ∧ f.checkedLineOf? s.start = some p.line) ∧
      f.checkedSpan? p = some (f.span p) := by
  obtain ⟨lines, h⟩ := exists_fallsInto f.text
  have hcount : lines.length = f.lines.lineCount := h.lineCount_eq.symm
  refine ⟨lines, h, hcount, ?_, fun s hs => ?_, checkedSpan?_eq hf hp⟩
  · rw [← hcount, ← and_assoc, ← and_assoc, and_assoc (a := 1 ≤ p.line),
      ← Place.exists_startsAt_iff]
    constructor
    · rintro ⟨s, hs⟩
      obtain ⟨start, hstart, hend, -⟩ := (span_eq_ok_iff h).1 hs
      refine ⟨⟨start, hstart⟩, fun start' hstart' => ?_⟩
      rw [Place.startsAt_iff_offsetAt? h] at hstart hstart'
      rw [hstart.2, Option.some.injEq] at hstart'
      exact hstart'.2 ▸ hend
    · rintro ⟨⟨start, hstart⟩, hend⟩
      exact ⟨_, (span_eq_ok_iff h).2 ⟨start, hstart, hend start hstart, rfl⟩⟩
  · obtain ⟨start, hstart, -, rfl⟩ := (span_eq_ok_iff h).1 hs
    have hline := lineOf_span hs
    have hoffset := ((Place.startsAt_iff_offsetAt? h).1 hstart).2
    refine ⟨hstart, rfl, LineMap.isBoundary_offsetAt? hoffset, hstart.exists_within, hline, ?_⟩
    rw [← hline] at hp ⊢
    exact if_pos hp

/-- A column behind the end of a line, and the greatest length that is left from there. -/
theorem span_spec_behind_line_end :
    let f : SourceFile := ⟨"a.cc", ['a', 'é', '\r', '\n', 'b']⟩
    let p : Place := ⟨1, 9, 4294967292⟩
    byteLength f.text ≤ maxOffset ∧ p.line ≤ maxOffset ∧
      f.span p = .ok ⟨0, 3, 4294967295⟩ ∧ isBoundary 3 f.text = true ∧
      f.checkedLineOf? 3 = some 1 ∧ f.checkedSpan? p = some (.ok ⟨0, 3, 4294967295⟩) := by
  intro f p
  have hf : byteLength f.text ≤ maxOffset := by decide
  have hp : p.line ≤ maxOffset := by decide
  have hspan : f.span p = .ok ⟨0, 3, 4294967295⟩ := by decide
  obtain ⟨lines, -, -, -, hspans, hchecked⟩ := span_spec hf hp
  obtain ⟨-, -, hboundary, -, -, hline⟩ := hspans _ hspan
  exact ⟨hf, hp, hspan, hboundary, hline, hspan ▸ hchecked⟩

end SourceFile

end ConstructorCheck
