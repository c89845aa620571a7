import ConstructorCheck.Proofs.Report.Lines
/-!
# Places and lines of a report

A reporter takes the number of a line from the line map, and counts columns and picks the displayed
line by newlines. The number is always that of the line map. The column and the displayed line are
those of the line map unless a carriage return without a newline intervenes.

* `SourceFile.length_lineBefore_eq_iff` — when the column is that of the line map
* `SourceFile.shownLine?_of_plainThrough` — when the displayed line is that of the line map
* `SourceFile.report_positions` — what a report says about a place
* `SourceFile.lone_return_moves_report` — a lone return that moves the column and the displayed line
-/

namespace ConstructorCheck

open Text Report

namespace SourceFile

variable {f : SourceFile} {start : Nat}

/-! ## Columns -/

/-- A carriage return that no newline follows, between the last newline before an offset and it. -/
def LoneReturnBefore (f : SourceFile) (start : Nat) : Prop :=
  ∃ a b, f.text = a ++ '\r' :: b ∧ b.head? ≠ some '\n' ∧
    start - byteLength (f.lineBefore start) ≤ byteLength a ∧ byteLength a < start

/-- **The line of the line map is the end of what stands before an offset on its line.** -/
theorem exists_lineBefore_eq_append (hstart : isBoundary start f.text = true) :
    ∃ p l₁ l₂ b, f.text = p ++ (l₁ ++ l₂) ++ b ∧ f.lineBefore start = l₁ ++ l₂ ∧
      byteLength p + byteLength (l₁ ++ l₂) = start ∧ '\n' ∉ l₁ ++ l₂ ∧
      f.lines.lineStart? (f.lines.lineAt start) = some (byteLength (p ++ l₁)) ∧
      (f.lines.positionAt start f.text).character = l₂.length ∧
      ∀ m ∈ startsAfter 0 f.text, m ≤ start → m ≤ byteLength (p ++ l₁) := by
  obtain ⟨p, b, ht, hp, hno, hlen⟩ := exists_line_start hstart
  obtain ⟨s, hs, hle, hlast⟩ := LineMap.exists_lineStart f.text start
  have hps : byteLength p ≤ s := by
    have hmem := hp.mem_starts (f.lineBefore start ++ b)
    rw [← List.append_assoc, ← ht] at hmem
    exact hlast _ hmem (by omega)
  -- the line starts between the last newline and the offset
  obtain ⟨a, c, hac, rfl⟩ := isBoundary_iff.1 (LineMap.isBoundary_lineStart? hs)
  obtain ⟨l₁, rfl⟩ : ∃ l₁, a = p ++ l₁ := by
    refine exists_eq_append_of_le (b := f.lineBefore start ++ b) (d := c) ?_ hps
    rw [← List.append_assoc, ← ht, hac]
  obtain ⟨l₂, hl⟩ : ∃ l₂, p ++ f.lineBefore start = p ++ l₁ ++ l₂ := by
    refine exists_eq_append_of_le (b := c) (d := b) (hac.symm.trans ht) ?_
    rwa [byteLength_append p (f.lineBefore start), hlen]
  rw [List.append_assoc] at hl
  have hline := List.append_cancel_left hl
  have hcharacter : (f.lines.positionAt start f.text).character = l₂.length := by
    refine LineMap.character_positionAt (a := p ++ l₁) (b := b) ?_ ?_ hs
    · rw [ht, hline, ← List.append_assoc p]
    · rw [List.append_assoc, ← hline, byteLength_append, hlen]
  rw [hline] at ht hno hlen
  exact ⟨p, l₁, l₂, b, ht, hline, hlen, hno, hs, hcharacter,
    fun m hm hle => hlast m (List.mem_cons_of_mem _ hm) hle⟩

/-- **The column is that of the line map unless a lone return stands before it.** -/
theorem length_lineBefore_eq_iff (hstart : isBoundary start f.text = true) :
    (f.lineBefore start).length = (f.lines.positionAt start f.text).character ↔
      ¬ f.LoneReturnBefore start := by
  obtain ⟨p, l₁, l₂, b, ht, hline, hlen, hno, hs, hcharacter, hlast⟩ :=
    exists_lineBefore_eq_append hstart
  have hbegin : start - byteLength (l₁ ++ l₂) = byteLength p := by omega
  rw [LoneReturnBefore, hline, hcharacter, hbegin, List.length_append, Nat.add_eq_right,
    List.length_eq_zero_iff]
  constructor
  · rintro rfl ⟨a, c, hac, hhead, hpa, hlt⟩
    -- the return would end a line after the last line start
    have hmem : byteLength (a ++ ['\r']) ∈ startsAfter 0 f.text :=
      hac ▸ mem_startsAfter_append_iff.2 (Or.inr ⟨rfl, hhead⟩)
    have hlen' : byteLength (a ++ ['\r']) = byteLength a + 1 := byteLength_append a ['\r']
    have hle := hlast _ hmem (by omega)
    rw [List.append_nil] at hle
    omega
  · intro hnone
    rcases List.eq_nil_or_concat l₁ with hnil | ⟨l, c, hl⟩
    · exact hnil
    · -- the line starts after the last character of `l₁`, which is not a newline
      rw [List.concat_eq_append] at hl
      have hsplit : f.text = p ++ l ++ c :: (l₂ ++ b) := by
        rw [ht, hl]
        simp only [List.append_assoc, List.cons_append, List.nil_append]
      have hwidth : byteLength (p ++ l ++ [c]) = byteLength p + byteLength l + c.utf8Size := by
        simp only [byteLength_append, byteLength_cons, byteLength_nil, Nat.add_zero]
      have hpos := c.utf8Size_pos
      have hends : EndsLine c (l₂ ++ b) := by
        rw [hl, ← List.append_assoc] at hs
        rcases List.mem_cons.1 (List.mem_of_getElem? hs) with hzero | hmem
        · omega
        · rw [hsplit] at hmem
          exact mem_startsAfter_append_iff.1 hmem
      rcases hends with rfl | ⟨rfl, hhead⟩
      · exact absurd (by simp [hl]) hno
      · refine absurd ⟨p ++ l, l₂ ++ b, hsplit, hhead, ?_, ?_⟩ hnone
        · rw [byteLength_append]
          omega
        · rw [hl] at hlen
          simp only [byteLength_append, byteLength_cons] at hlen ⊢
          omega

end SourceFile

/-! ## Displayed lines -/

namespace Report

variable {p q line e : List Char}

/-- Without lone returns a displayed line holds no terminator character. -/
theorem not_isTerminator_of_mem (ht : NoLoneReturn (line ++ e)) (hends : LineEnd line e q)
    (hno : '\n' ∉ line) {c : Char} (hc : c ∈ line) : LineMap.isTerminator c = false := by
  rw [← Bool.not_eq_true]
  intro hterminator
  have hcases : c = '\r' ∨ c = '\n' := by simpa [LineMap.isTerminator] using hterminator
  rcases hcases with rfl | rfl
  · obtain ⟨x, y, rfl⟩ := List.append_of_mem hc
    have hhead := ht x (y ++ e) (by simp)
    cases y with
    | cons d y =>
      have hd : d = '\n' := by simpa using hhead
      exact hno (by simp [hd])
    | nil =>
      cases hends with
      | text => cases hhead
      | newline _ hlast => exact hlast x rfl
      | returnNewline => cases hhead
  · exact hno hc

/-- After complete lines the next line starts. -/
theorem exists_starts_eq (hp : CompleteLines p) :
    ∃ init, 0 :: afterNewlines 0 p = init ++ [byteLength p] ∧ init.length = p.count '\n' := by
  rcases hp with rfl | ⟨p, rfl⟩
  · exact ⟨[], rfl, rfl⟩
  · refine ⟨0 :: afterNewlines 0 p, ?_, ?_⟩
    · rw [afterNewlines_append, Nat.zero_add, byteLength_append]
      rfl
    · rw [List.length_cons, length_afterNewlines, List.count_append]
      rfl

/-- Without lone returns the line map counts complete lines by their newlines. -/
theorem lineStart?_of_noLoneReturn {l : List Char} (ht : NoLoneReturn (p ++ l))
    (hp : CompleteLines p) (q : List Char) :
    (LineMap.build (p ++ l ++ q)).lineStart? (p.count '\n') = some (byteLength p) ∧
      (LineMap.build (p ++ l ++ q)).lineStart? (p.count '\n' + 1) =
        (afterNewlines (byteLength p) l ++ startsAfter (byteLength (p ++ l)) q).head? := by
  obtain ⟨init, hinit, hlen⟩ := exists_starts_eq hp
  have hstarts : (LineMap.build (p ++ l ++ q)).starts = init ++ [byteLength p] ++
      (afterNewlines (byteLength p) l ++ startsAfter (byteLength (p ++ l)) q) := by
    rw [LineMap.build, startsAfter_append_of_noLoneReturn ht, afterNewlines_append, ← hinit]
    simp only [Nat.zero_add, List.cons_append, List.append_assoc]
  rw [LineMap.lineStart?, LineMap.lineStart?, hstarts, ← hlen]
  refine ⟨by simp, ?_⟩
  rw [List.getElem?_append_right (by simp), List.length_append, List.length_singleton,
    Nat.sub_self, List.head?_eq_getElem?]

theorem afterNewlines_of_not_mem (hno : '\n' ∉ line) (offset : Nat) :
    afterNewlines offset line = [] := by
  rw [← List.length_eq_zero_iff, length_afterNewlines, List.count_eq_zero]
  exact hno

/-- The next line starts after the terminator, or else the text ends. -/
theorem getD_head?_lineEnd (hends : LineEnd line e q) (hno : '\n' ∉ line) (offset : Nat) :
    (afterNewlines offset (line ++ e) ++
      startsAfter (offset + byteLength (line ++ e)) q).head?.getD
        (offset + byteLength (line ++ e ++ q)) = offset + byteLength (line ++ e) := by
  rw [afterNewlines_append, afterNewlines_of_not_mem hno, List.nil_append]
  cases hends with
  | text => simp [afterNewlines, startsAfter]
  | newline => simp [afterNewlines, Nat.add_assoc]
  | returnNewline => simp [afterNewlines, Nat.add_assoc]

/-- **Without lone returns the content of a line is the displayed line**, whatever follows. -/
theorem lineEnd?_of_noLoneReturn (ht : NoLoneReturn (p ++ (line ++ e))) (hp : CompleteLines p)
    (hends : LineEnd line e q) (hno : '\n' ∉ line) :
    (LineMap.build (p ++ (line ++ e) ++ q)).lineEnd? (p.count '\n') (p ++ (line ++ e) ++ q) =
      some (byteLength (p ++ line)) := by
  obtain ⟨hstart, hnext⟩ := lineStart?_of_noLoneReturn ht hp q
  have hstop : ((LineMap.build (p ++ (line ++ e) ++ q)).lineStart? (p.count '\n' + 1)).getD
      (LineMap.build (p ++ (line ++ e) ++ q)).size = byteLength (p ++ (line ++ e)) := by
    rw [hnext, LineMap.build, List.append_assoc p, byteLength_append p, byteLength_append p]
    exact getD_head?_lineEnd hends hno (byteLength p)
  have htrim : LineMap.trimEnd (line ++ e) = line := by
    refine LineMap.trimEnd_append
      (fun c hc => not_isTerminator_of_mem ht.of_append_right hends hno hc) ?_
    cases hends <;> simp [LineMap.isTerminator]
  rw [LineMap.lineEnd?, hstart, Option.map_some, hstop, slice_append, htrim, byteLength_append]

end Report

namespace SourceFile

variable {f : SourceFile} {start : Nat} {line p e q : List Char}

/--
No carriage return without a newline comes up to the end of the line of an offset: some complete
lines that go beyond the offset have none, or else the whole text has none.
-/
def PlainThrough (f : SourceFile) (start : Nat) : Prop :=
  ∃ a b, f.text = a ++ b ∧ NoLoneReturn a ∧ (b = [] ∨ CompleteLines a ∧ start < byteLength a)

theorem not_loneReturnBefore_of_plainThrough (ht : f.PlainThrough start)
    (hstart : start ≤ byteLength f.text) : ¬ f.LoneReturnBefore start := by
  rintro ⟨x, y, hxy, hhead, -, hlt⟩
  obtain ⟨a, b, hab, ha, hreach⟩ := ht
  have hle : byteLength (x ++ ['\r']) ≤ byteLength a := by
    have hlen : byteLength (x ++ ['\r']) = byteLength x + 1 := byteLength_append x ['\r']
    rcases hreach with rfl | ⟨-, hreach⟩
    · rw [hab, List.append_nil] at hstart
      omega
    · omega
  rw [List.append_cons] at hxy
  obtain ⟨m, rfl⟩ := exists_eq_append_of_le (hxy.symm.trans hab) hle
  rw [hxy, List.append_assoc (x ++ ['\r'])] at hab
  rw [List.append_cancel_left hab, List.head?_append, ha x m (List.append_cons x _ m).symm] at hhead
  exact hhead rfl

/-- What is plain goes to the end of the displayed line. -/
theorem PlainThrough.noLoneReturn (ht : f.PlainThrough start)
    (htext : f.text = p ++ (line ++ e ++ q)) (hle : byteLength p ≤ start)
    (hends : LineEnd line e q) (hno : '\n' ∉ line) : NoLoneReturn (p ++ (line ++ e)) := by
  obtain ⟨a, b, hab, ha, hreach⟩ := ht
  rw [htext] at hab
  -- the newline at the end of the plain part is not before the one of the line
  have hfar : byteLength (p ++ (line ++ e)) ≤ byteLength a := by
    rcases hreach with rfl | ⟨rfl | ⟨c, rfl⟩, hlt⟩
    · rw [List.append_nil] at hab
      simp only [← hab, byteLength_append]
      omega
    · cases hlt
    · have hlen : byteLength (c ++ ['\n']) = byteLength c + 1 := byteLength_append c ['\n']
      rw [List.append_assoc c] at hab
      obtain ⟨k, rfl⟩ := exists_eq_append_of_le hab (by omega)
      rw [List.append_assoc p k] at hab
      have hle := hends.byteLength_le hno (List.append_cancel_left hab)
      rw [hlen, byteLength_append, byteLength_append p]
      omega
  rw [← List.append_assoc p] at hab
  obtain ⟨m, rfl⟩ := exists_eq_append_of_le hab hfar
  refine ha.of_append_left ?_
  rcases hends.eq_nil_or_newline hno with ⟨rfl, rfl⟩ | ⟨l, hl, -⟩
  · rw [List.append_assoc _ m b] at hab
    exact Or.inl (List.append_eq_nil_iff.1 (List.append_cancel_left hab).symm).1
  · exact Or.inr ⟨p ++ l, by rw [hl, List.append_assoc]⟩

/-- **The displayed line is that of the line map** unless a lone return comes up to its end. -/
theorem shownLine?_of_plainThrough (ht : f.PlainThrough start)
    (hstart : isBoundary start f.text = true) (hline : f.shownLine? start = some line) :
    ∃ s e, f.lines.lineStart? (f.lines.lineAt start) = some s ∧
      f.lines.lineEnd? (f.lines.lineAt start) f.text = some e ∧ slice? s e f.text = some line := by
  obtain ⟨p, b, htext, hp, hnobefore, hlen, hshown⟩ := exists_shownLine?_eq hstart
  rw [hshown] at hline
  cases hls : displayLines (f.lineBefore start ++ b) with
  | nil =>
    rw [hls] at hline
    cases hline
  | cons first ls =>
    obtain ⟨e, q, hsplit, hends, hno⟩ := exists_of_displayLines_cons hls
    rw [hsplit] at htext
    have hplain := ht.noLoneReturn htext (by omega) hends hno
    rw [← List.append_assoc p] at htext
    -- the offset is on the first of the lines
    have hcount : f.lines.lineAt start = p.count '\n' := by
      obtain ⟨r, hr⟩ :=
        exists_eq_append_of_le hsplit (hends.le_byteLength hno hnobefore hsplit)
      rw [hr, ← List.append_assoc] at hplain htext
      have hcount := LineMap.lineAt_of_noLoneReturn hplain q
      rwa [← htext, byteLength_append, hlen, List.count_append, List.count_eq_zero.2 hnobefore,
        Nat.add_zero] at hcount
    rw [hls, hcount, Nat.sub_self, List.getElem?_cons_zero, Option.some.injEq] at hline
    subst hline
    refine ⟨byteLength p, byteLength (p ++ first), ?_, ?_, ?_⟩
    · rw [hcount, SourceFile.lines, htext]
      exact (lineStart?_of_noLoneReturn hplain hp q).1
    · rw [hcount, SourceFile.lines, htext]
      exact lineEnd?_of_noLoneReturn hplain hp hends hno
    · rw [htext, List.append_assoc, List.append_assoc first, ← List.append_assoc p]
      exact slice?_append p first (e ++ q)

/--
**What a report says about a place.** The line is that of the line map. The column is that of the
line map exactly when no lone return stands between the last newline before the place and the place.
If none stands in the text up to the end of the line either, the line that a snippet displays is
that of the line map too, without its terminator.
-/
theorem report_positions (f : SourceFile) (start : Nat)
    (hstart : isBoundary start f.text = true) :
    let position := f.lines.positionAt start f.text
    (∃ column, f.location start =
        f.name ++ ":" ++ (position.line + 1).repr ++ ":" ++ column.repr ∧
      (column = position.character + 1 ↔ ¬ f.LoneReturnBefore start)) ∧
    (f.PlainThrough start →
      f.location start = f.name ++ ":" ++ (position.line + 1).repr ++ ":" ++
        (position.character + 1).repr ∧
      ∀ length, f.snippet start length ≠ [] → ∃ line s e,
        f.snippet start length =
          [.plain ("\n  " ++ padded (position.line + 1) ++ "   " ++ String.ofList line ++
              "\n        "),
            .styled .red (String.ofList (f.underlineAt start length line))] ∧
        f.lines.lineStart? position.line = some s ∧
        f.lines.lineEnd? position.line f.text = some e ∧ slice? s e f.text = some line) := by
  intro position
  have hcolumn := length_lineBefore_eq_iff hstart
  refine ⟨⟨(f.lineBefore start).length + 1, rfl, ?_⟩, fun ht => ⟨?_, fun length hsnippet => ?_⟩⟩
  · rw [Nat.add_right_cancel_iff]
    exact hcolumn
  · rw [location, hcolumn.2 (not_loneReturnBefore_of_plainThrough ht (le_of_isBoundary hstart))]
    rfl
  · have hlength : length ≠ 0 := fun hzero => hsnippet (if_pos hzero)
    cases hline : f.shownLine? start with
    | none => exact absurd (by rw [snippet, if_neg hlength, hline]) hsnippet
    | some line =>
      obtain ⟨s, e, hs, he, hslice⟩ := shownLine?_of_plainThrough ht hstart hline
      exact ⟨line, s, e, by rw [snippet, if_neg hlength, hline]; rfl, hs, he, hslice⟩

/--
A place on a line that ends with a return and a newline, after a character of two bytes. A lone
return comes on a later line.
-/
theorem report_positions_second_line :
    let f : SourceFile := ⟨"a.cc", ['a', '\n', 'é', 'b', '\r', '\n', 'c', '\r', 'd']⟩
    isBoundary 4 f.text = true ∧ f.PlainThrough 4 ∧ f.location 4 = "a.cc:2:2" ∧
      ∃ line, f.snippet 4 1 = [.plain ("\n    2   " ++ String.ofList line ++ "\n        "),
          .styled .red " ~"] ∧ slice? 2 5 f.text = some line := by
  intro f
  have hstart : isBoundary 4 f.text = true := by decide +kernel
  have ht : f.PlainThrough 4 := ⟨['a', '\n', 'é', 'b', '\r', '\n'], ['c', '\r', 'd'], rfl,
    by decide +kernel, Or.inr ⟨Or.inr ⟨['a', '\n', 'é', 'b', '\r'], rfl⟩, by decide +kernel⟩⟩
  have hsnippet : f.snippet 4 1 ≠ [] := by decide +kernel
  have hposition : f.lines.positionAt 4 f.text = ⟨1, 1⟩ := by decide +kernel
  obtain ⟨hlocation, hlines⟩ := (report_positions f 4 hstart).2 ht
  obtain ⟨line, s, e, hline, hs, he, hslice⟩ := hlines 1 hsnippet
  rw [hposition] at hlocation hline hs he
  have hs' : f.lines.lineStart? 1 = some 2 := by decide +kernel
  have he' : f.lines.lineEnd? 1 f.text = some 5 := by decide +kernel
  rw [hs', Option.some.injEq] at hs
  rw [he', Option.some.injEq] at he
  subst hs he
  have hcontent : slice? 2 5 f.text = some ['é', 'b'] := by decide +kernel
  rw [hcontent, Option.some.injEq] at hslice
  subst hslice
  exact ⟨hstart, ht, hlocation.trans (by decide +kernel), ['é', 'b'],
    hline.trans (by decide +kernel), hcontent⟩

/--
A lone return ends a line for the line map, but not for the columns and the displayed lines: the
place is reported on line 2, with the column that it would have on line 1, and below the text of the
line after it.
-/
theorem lone_return_moves_report :
    let f : SourceFile := ⟨"a.cc", ['a', '\r', 'b', '\n', 'c']⟩
    isBoundary 2 f.text = true ∧ f.lines.positionAt 2 f.text = ⟨1, 0⟩ ∧
      f.location 2 = "a.cc:2:3" ∧ f.lines.lineStart? 1 = some 2 ∧
      f.lines.lineEnd? 1 f.text = some 3 ∧ slice? 2 3 f.text = some ['b'] ∧
      f.snippet 2 1 = [.plain "\n    2   c\n        ", .styled .red " ~"] := by
  decide +kernel

end SourceFile

end ConstructorCheck
