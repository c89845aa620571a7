import ConstructorCheck.Proofs.Report.Checked
import ConstructorCheck.Proofs.Report.Positions
import ConstructorCheck.Proofs.Text.Positions
import ConstructorCheck.Proofs.Text.Template
/-!
# Underlines

What a snippet shows for a place in a line: the line with its number, and below it blanks and tildes
that take as many columns as the characters before the place and those in the range.

* `width`, `width_eq` — the columns that a text takes
* `charactersAt` — the characters of a text whose offsets have a property
* `marks_eq`, `underline_eq` — blanks and tildes below a line
* `SourceFile.InLine` — a place in the content of a displayed line, or at its end
* `SourceFile.InLine.snippet_eq` — the snippet of such a place
* `SourceFile.underline_spec` — the snippet as it is printed

The marks follow the characters of the line, so that the blanks and tildes are counted along it. For
the line itself, its number and its begin are found in two ways, from the complete lines before it
and from the line map; in a text without lone returns they agree.
-/

namespace ConstructorCheck

open Text Report

namespace Report

variable {t line a b : List Char} {c : Char} {i m n start stop offset : Nat}

/-! ## Columns -/

/-- The columns that a text takes. -/
def width : List Char → Nat
  | [] => 0
  | c :: r => columnWidth c + width r

@[simp] theorem width_nil : width [] = 0 := rfl

@[simp] theorem width_cons (c : Char) (t : List Char) :
    width (c :: t) = columnWidth c + width t := rfl

@[simp] theorem width_append (a b : List Char) : width (a ++ b) = width a + width b := by
  induction a with
  | nil => rw [List.nil_append, width_nil, Nat.zero_add]
  | cons c a ih => rw [List.cons_append, width_cons, width_cons, ih, Nat.add_assoc]

/-- **A tab takes four columns, any other character one.** -/
theorem width_eq (t : List Char) : width t = t.length + 3 * t.count '\t' := by
  induction t with
  | nil => rfl
  | cons c r ih =>
    rw [width_cons, ih, columnWidth, List.length_cons, List.count_cons]
    by_cases hc : c = '\t'
    · rw [if_pos hc, if_pos (by simpa using hc)]
      omega
    · rw [if_neg hc, if_neg (by simpa using hc)]
      omega

/-! ## Characters at offsets -/

/-- The characters of a text with their offsets, where the text begins at offset `offset`. -/
def withOffsets : Nat → List Char → List (Nat × Char)
  | _, [] => []
  | offset, c :: r => (offset, c) :: withOffsets (offset + c.utf8Size) r

/-- The characters of a text whose offsets have a property. -/
def charactersAt (p : Nat → Prop) [DecidablePred p] (offset : Nat) (t : List Char) : List Char :=
  ((withOffsets offset t).filter fun x => p x.1).map (·.2)

section CharactersAt

variable {p q : Nat → Prop} [DecidablePred p] [DecidablePred q]

theorem mem_withOffsets_iff : (m, c) ∈ withOffsets n t ↔
    ∃ a b, t = a ++ c :: b ∧ m = n + byteLength a := by
  induction t generalizing n with
  | nil => simp [withOffsets]
  | cons d r ih =>
    rw [withOffsets, List.mem_cons, ih]
    constructor
    · rintro (heq | ⟨a, b, rfl, rfl⟩)
      · obtain ⟨rfl, rfl⟩ := Prod.mk.inj heq
        exact ⟨[], r, rfl, rfl⟩
      · exact ⟨d :: a, b, rfl, by rw [byteLength_cons, Nat.add_assoc]⟩
    · rintro ⟨a, b, heq, rfl⟩
      cases a with
      | nil =>
        obtain ⟨rfl, rfl⟩ := List.cons.inj heq
        exact Or.inl rfl
      | cons e a =>
        obtain ⟨rfl, rfl⟩ := List.cons.inj heq
        exact Or.inr ⟨a, b, rfl, by rw [byteLength_cons, Nat.add_assoc]⟩

theorem map_snd_withOffsets (n : Nat) (t : List Char) : (withOffsets n t).map (·.2) = t := by
  induction t generalizing n with
  | nil => rfl
  | cons c r ih => rw [withOffsets, List.map_cons, ih]

theorem charactersAt_cons_of_pos (hn : p n) (c : Char) (t : List Char) :
    charactersAt p n (c :: t) = c :: charactersAt p (n + c.utf8Size) t := by
  simp [charactersAt, withOffsets, hn]

theorem charactersAt_cons_of_neg (hn : ¬ p n) (c : Char) (t : List Char) :
    charactersAt p n (c :: t) = charactersAt p (n + c.utf8Size) t := by
  simp [charactersAt, withOffsets, hn]

theorem charactersAt_append (p : Nat → Prop) [DecidablePred p] (n : Nat) (a b : List Char) :
    charactersAt p n (a ++ b) = charactersAt p n a ++ charactersAt p (n + byteLength a) b := by
  induction a generalizing n with
  | nil => rfl
  | cons c r ih =>
    rw [List.cons_append, byteLength_cons, ← Nat.add_assoc]
    by_cases hn : p n
    · rw [charactersAt_cons_of_pos hn, charactersAt_cons_of_pos hn, ih, List.cons_append]
    · rw [charactersAt_cons_of_neg hn, charactersAt_cons_of_neg hn, ih]

theorem charactersAt_congr (h : ∀ m, n ≤ m → m < n + byteLength t → (p m ↔ q m)) :
    charactersAt p n t = charactersAt q n t := by
  refine congrArg (List.map _) (List.filter_congr fun x hx => ?_)
  obtain ⟨a, b, rfl, hm⟩ := mem_withOffsets_iff.1 hx
  have hpos := x.2.utf8Size_pos
  simp only [byteLength_append, byteLength_cons] at h
  exact decide_eq_decide.2 (h x.1 (by omega) (by omega))

theorem charactersAt_eq_nil (h : ∀ m, n ≤ m → m < n + byteLength t → ¬ p m) :
    charactersAt p n t = [] := by
  rw [charactersAt_congr (q := fun _ => False) fun m hm hlt => iff_false_intro (h m hm hlt)]
  simp [charactersAt]

theorem charactersAt_eq_self (h : ∀ m, n ≤ m → m < n + byteLength t → p m) :
    charactersAt p n t = t := by
  rw [charactersAt_congr (q := fun _ => True) fun m hm hlt => iff_true_intro (h m hm hlt)]
  simp [charactersAt, map_snd_withOffsets]

/-- Different characters of a text take no more columns than the text. -/
theorem width_charactersAt_add_le (hpq : ∀ m, p m → ¬ q m) (n : Nat) (t : List Char) :
    width (charactersAt p n t) + width (charactersAt q n t) ≤ width t := by
  induction t generalizing n with
  | nil => exact Nat.le_refl 0
  | cons c r ih =>
    have hr := ih (n + c.utf8Size)
    rw [width_cons]
    by_cases hn : p n
    · rw [charactersAt_cons_of_pos hn, charactersAt_cons_of_neg (hpq n hn), width_cons]
      omega
    · rw [charactersAt_cons_of_neg hn]
      by_cases hn' : q n
      · rw [charactersAt_cons_of_pos hn', width_cons]
        omega
      · rw [charactersAt_cons_of_neg hn']
        omega

/-- **The characters before an offset at which a text is cut** are those of the first part. -/
theorem charactersAt_lt_append (n : Nat) (a b : List Char) :
    charactersAt (· < n + byteLength a) n (a ++ b) = a := by
  rw [charactersAt_append, charactersAt_eq_self fun m _ hlt => hlt,
    charactersAt_eq_nil fun m hm _ => Nat.not_lt.2 hm, List.append_nil]

end CharactersAt

/-! ## Marks -/

/-- **The marks** are blanks for the characters before the start and tildes for those behind it. -/
theorem marks_eq (hle : start ≤ stop) (offset : Nat) (line : List Char) :
    marks start stop offset line =
      List.replicate (width (charactersAt (· < start) offset line)) ' ' ++
        List.replicate (width (charactersAt (fun m => start ≤ m ∧ m < stop) offset line)) '~' := by
  induction line generalizing offset with
  | nil => rfl
  | cons c r ih =>
    rw [marks]
    by_cases hstop : stop ≤ offset
    · rw [if_pos hstop, charactersAt_eq_nil fun m _ _ => by omega,
        charactersAt_eq_nil fun m _ _ => by omega]
      rfl
    · rw [if_neg hstop, ih]
      by_cases hlt : offset < start
      · rw [charactersAt_cons_of_pos (p := (· < start)) hlt,
          charactersAt_cons_of_neg (p := fun m => start ≤ m ∧ m < stop) (by omega), if_pos hlt,
          width_cons, List.replicate_add, List.append_assoc]
      · -- the blanks are over
        have hpos := c.utf8Size_pos
        rw [charactersAt_eq_nil (p := (· < start)) (t := c :: r) fun m _ _ => by omega,
          charactersAt_eq_nil (p := (· < start)) (t := r) fun m _ _ => by omega,
          charactersAt_cons_of_pos (p := fun m => start ≤ m ∧ m < stop) (by omega), if_neg hlt,
          width_cons, List.replicate_add]
        rfl

/-- **The underline** is the marks, with at least one tilde. -/
theorem underline_eq (hle : start ≤ stop) (offset : Nat) (line : List Char) :
    underline start stop offset line =
      List.replicate (width (charactersAt (· < start) offset line)) ' ' ++
        List.replicate
          (max (width (charactersAt (fun m => start ≤ m ∧ m < stop) offset line)) 1) '~' := by
  unfold underline
  rw [marks_eq hle]
  generalize width (charactersAt (· < start) offset line) = blanks
  cases width (charactersAt (fun m => start ≤ m ∧ m < stop) offset line) with
  | zero => simp
  | succ n => simp [List.replicate_succ]

theorem mem_marks (h : c ∈ marks start stop offset line) : c = ' ' ∨ c = '~' := by
  induction line generalizing offset with
  | nil => cases h
  | cons d r ih =>
    rw [marks] at h
    split at h
    · cases h
    · rcases List.mem_append.1 h with hmark | hrest
      · rw [List.eq_of_mem_replicate hmark]
        split
        · exact Or.inl rfl
        · exact Or.inr rfl
      · exact ih hrest

theorem mem_underline (h : c ∈ underline start stop offset line) : c = ' ' ∨ c = '~' := by
  rw [underline] at h
  split at h
  · exact mem_marks h
  · rcases List.mem_append.1 h with hmarks | htilde
    · exact mem_marks hmarks
    · exact Or.inr (List.mem_singleton.1 htilde)

/-! ## Numbers of lines -/

theorem toList_padded (n : Nat) : (padded n).toList =
    List.replicate (3 - n.repr.toList.length) ' ' ++ n.repr.toList := String.toList_ofList

/-- A number of a line is written with blanks and digits. -/
theorem notMem_padded (hblank : c ≠ ' ') (hdigit : c.isDigit = false) (n : Nat) :
    c ∉ (padded n).toList := by
  simpa [toList_padded, hblank] using notMem_repr hdigit n

/-- A snippet without colours. -/
theorem paint_snippet (s : Style) (a b : String) :
    paint false [.plain a, .styled s b] = a ++ b := by
  rw [← List.singleton_append, paint_append, paint_plain, paint_styled]
  rfl

end Report

/-! ## Snippets -/

namespace SourceFile

variable {f : SourceFile} {start lineStart length i : Nat} {line : List Char}

/--
The place `start` is in the content of the displayed line number `i`, counted from 0, or at its end.
The line begins at `lineStart`.
-/
structure InLine (f : SourceFile) (start i lineStart : Nat) (line : List Char) : Prop where
  getElem?_lines : (displayLines f.text)[i]? = some line
  getElem?_starts : (0 :: afterNewlines 0 f.text)[i]? = some lineStart
  boundary : isBoundary start f.text = true
  le_start : lineStart ≤ start
  start_le : start ≤ lineStart + byteLength line

/-- The text is cut at the begin of the line and at the place. -/
theorem InLine.exists_split (h : f.InLine start i lineStart line) :
    ∃ p x y q, f.text = p ++ x ++ (y ++ q) ∧ line = x ++ y ∧ CompleteLines p ∧ '\n' ∉ line ∧
      byteLength p = lineStart ∧ lineStart + byteLength x = start ∧ p.count '\n' = i ∧
      i < byteLength f.text := by
  obtain ⟨p, e, q, ht, hp, hcount, -, hno, hne⟩ :=
    exists_of_getElem?_displayLines h.getElem?_lines
  obtain ⟨init, hinit, hinitlen⟩ := exists_starts_eq hp
  have hbegin : byteLength p = lineStart := by
    have hget := h.getElem?_starts
    rw [ht, afterNewlines_append, ← List.cons_append, hinit, ← hcount, ← hinitlen] at hget
    simpa using hget
  obtain ⟨a, b, hab, rfl⟩ := isBoundary_iff.1 h.boundary
  obtain ⟨x, rfl⟩ := exists_eq_append_of_le (ht.symm.trans hab) (hbegin ▸ h.le_start)
  have hend := h.start_le
  rw [← hbegin, ← byteLength_append] at hend
  obtain ⟨y, hy⟩ := exists_eq_append_of_le (b := b) (d := e ++ q)
    (by rw [← hab, ht]; simp only [List.append_assoc]) hend
  rw [List.append_assoc] at hy
  obtain rfl := List.append_cancel_left hy
  refine ⟨p, x, y, e ++ q, ?_, rfl, hp, hno, hbegin, ?_, hcount, ?_⟩
  · rw [ht]
    simp only [List.append_assoc]
  · rw [← hbegin, byteLength_append]
  · have hfront := (List.count_le_length (a := '\n') (l := p)).trans (length_le_byteLength p)
    have hrest := (List.length_pos_of_ne_nil hne).trans_le (length_le_byteLength _)
    rw [ht, byteLength_append]
    omega

/-- **The displayed line of a place that is in a line is this line.** -/
theorem InLine.exists_shown (h : f.InLine start i lineStart line) (ht : NoLoneReturn f.text) :
    ∃ x y, line = x ++ y ∧ lineStart + byteLength x = start ∧ f.lineBefore start = x ∧
      f.lineOf start = i + 1 ∧ f.shownLine? start = some line := by
  obtain ⟨p, x, y, q, htext, hline, hp, hno, hbegin, hstart, hcount, -⟩ := h.exists_split
  have hnox : '\n' ∉ x := fun hmem => hno (hline ▸ List.mem_append_left y hmem)
  have hcut : byteLength (p ++ x) = start := by rw [byteLength_append, hbegin, hstart]
  have hbefore : f.lineBefore start = x := by
    rw [← hcut, lineBefore, before_eq htext, afterLastNewline_append hp hnox]
  have hlineAt : f.lines.lineAt start = i := by
    have hplain : NoLoneReturn (p ++ x ++ (y ++ q)) := htext ▸ ht
    have hnumber := LineMap.lineAt_of_noLoneReturn hplain []
    rwa [List.append_nil, ← htext, hcut, List.count_append, List.count_eq_zero.2 hnox, hcount]
      at hnumber
  have hlineOf : f.lineOf start = i + 1 := congrArg (· + 1) hlineAt
  exact ⟨x, y, hline, hstart, hbefore, hlineOf, by
    rw [shownLine?, hlineOf, Nat.add_sub_cancel, h.getElem?_lines]⟩

theorem InLine.shows (h : f.InLine start i lineStart line) (ht : NoLoneReturn f.text)
    (hsize : byteLength f.text ≤ maxOffset) : f.Shows start := by
  obtain ⟨-, -, -, -, -, -, -, -, -, -, -, hlt⟩ := h.exists_split
  obtain ⟨-, -, -, -, -, hlineOf, -⟩ := h.exists_shown ht
  exact ⟨h.boundary, lt_of_eq_of_lt (Nat.succ_inj.1 hlineOf) (Nat.lt_of_lt_of_le hlt hsize)⟩

/-- **The snippet of a place**: the line it is in, with its number, and the underline. -/
theorem InLine.snippet_eq (h : f.InLine start i lineStart line) (ht : NoLoneReturn f.text)
    (hlength : 1 ≤ length) : f.snippet start length =
      [.plain ("\n  " ++ padded (i + 1) ++ "   " ++ String.ofList line ++ "\n        "),
        .styled .red (String.ofList
          (underline start (min (start + length) maxOffset) lineStart line))] := by
  obtain ⟨x, y, -, hstart, hbefore, hlineOf, hshown⟩ := h.exists_shown ht
  have hbegin : start - byteLength x = lineStart := by omega
  simp only [snippet, if_neg (Nat.ne_of_gt hlength), hshown, hlineOf, underlineAt, hbefore, hbegin]

/-- No character of a line stands at an offset beyond the last one. -/
theorem InLine.underline_eq (h : f.InLine start i lineStart line)
    (hsize : byteLength f.text ≤ maxOffset) (length : Nat) :
    underline start (min (start + length) maxOffset) lineStart line =
      List.replicate (width (charactersAt (· < start) lineStart line)) ' ' ++
        List.replicate (max (width (charactersAt (fun n => start ≤ n ∧ n < start + length)
          lineStart line)) 1) '~' := by
  obtain ⟨p, x, y, q, htext, hline, -, -, hbegin, hstart, -, -⟩ := h.exists_split
  have hend : lineStart + byteLength line ≤ byteLength f.text := by
    rw [htext, hline, ← hbegin]
    simp only [byteLength_append]
    omega
  have hoffset : start ≤ maxOffset := (le_of_isBoundary h.boundary).trans hsize
  have hinside : charactersAt (fun n => start ≤ n ∧ n < min (start + length) maxOffset) lineStart
      line = charactersAt (fun n => start ≤ n ∧ n < start + length) lineStart line :=
    charactersAt_congr fun n _ hlt => by omega
  rw [Report.underline_eq (by omega), hinside]

/--
**What is underlined.** In a text without lone returns, the snippet of a place in the content of a
displayed line, or at its end, is this line and below it as many blanks as the characters before the
place take columns, then as many tildes as the characters in the range do, and one tilde if there
are none. Nothing behind the end of the line is marked, however long the range is. All of it is
computed without leaving the offsets.
-/
theorem underline_spec (h : f.InLine start i lineStart line) (ht : NoLoneReturn f.text)
    (hsize : byteLength f.text ≤ maxOffset) (hlength : 1 ≤ length) :
    let blanks := width (charactersAt (· < start) lineStart line)
    let tildes := width (charactersAt (fun n => start ≤ n ∧ n < start + length) lineStart line)
    f.checkedSnippet? start length = some (f.snippet start length) ∧
    paint false (f.snippet start length) =
      "\n  " ++ padded (i + 1) ++ "   " ++ String.ofList line ++ "\n        " ++
        String.ofList (List.replicate blanks ' ' ++ List.replicate (max tildes 1) '~') ∧
    blanks + tildes ≤ width line := by
  intro blanks tildes
  refine ⟨checkedSnippet?_eq (h.shows ht hsize) hsize length, ?_, ?_⟩
  · rw [h.snippet_eq ht hlength, h.underline_eq hsize, paint_snippet]
  · exact width_charactersAt_add_le (fun n hn hmem => Nat.not_lt.2 hmem.1 hn) lineStart line

/--
A range that goes on behind its line, as far as offsets go: its line begins with a tab and ends with
a return and a newline, and the range begins with a character of two bytes.
-/
theorem underline_spec_past_line_end :
    let f : SourceFile := ⟨"a.cc", ['x', '\r', '\n', '\t', 'é', 'b', '\r', '\n', 'c']⟩
    f.InLine 4 1 3 ['\t', 'é', 'b'] ∧ NoLoneReturn f.text ∧ byteLength f.text ≤ maxOffset ∧
      1 ≤ maxOffset ∧ f.checkedSnippet? 4 maxOffset = some (f.snippet 4 maxOffset) ∧
      paint false (f.snippet 4 maxOffset) = "\n    2   \téb\n            ~~" := by
  intro f
  have hline : f.InLine 4 1 3 ['\t', 'é', 'b'] :=
    ⟨by decide +kernel, by decide +kernel, by decide +kernel, by decide, by decide⟩
  have ht : NoLoneReturn f.text := by decide +kernel
  have hsize : byteLength f.text ≤ maxOffset := by decide +kernel
  have hlength : 1 ≤ maxOffset := by decide
  obtain ⟨hchecked, hpaint, -⟩ := underline_spec hline ht hsize hlength
  exact ⟨hline, ht, hsize, hlength, hchecked, hpaint.trans (by decide +kernel)⟩

end SourceFile

end ConstructorCheck
