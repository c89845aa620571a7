import ConstructorCheck.Proofs.Report.Underline
/-!
# Underlines below their characters

In a snippet the number of the line stands before its text, and eight blanks stand before the
underline. The number takes as many columns as it needs, but at least three, so an underline begins
below its first character up to line 999, and too far to the left after that.

* `width_gutter` — the columns in front of a displayed line
* `SourceFile.InLine.lines_eq` — the two lines of a snippet
* `SourceFile.alignment_spec` — where the underline begins
* `SourceFile.thousandth_line_misaligned` — an underline that begins too far to the left
-/

namespace ConstructorCheck

open Text Report

namespace Report

variable {n : Nat} {t : List Char} {c : Char}

/-- What stands before the text of a displayed line. -/
def gutter (n : Nat) : List Char :=
  List.replicate 2 ' ' ++ (padded n).toList ++ List.replicate 3 ' '

/-- A line of output begins with blanks and the digits of a number. -/
theorem notMem_gutter (hblank : c ≠ ' ') (hdigit : c.isDigit = false) (n : Nat) : c ∉ gutter n := by
  simpa [gutter, hblank] using notMem_padded hblank hdigit n

theorem width_of_tab_notMem (ht : '\t' ∉ t) : width t = t.length := by
  induction t with
  | nil => rfl
  | cons c r ih =>
    rw [List.mem_cons, not_or] at ht
    rw [width_cons, ih ht.2, columnWidth, if_neg (Ne.symm ht.1), List.length_cons, Nat.add_comm]

/-- **The columns in front of a displayed line**: a number takes three of them or more. -/
theorem width_gutter (n : Nat) : width (gutter n) = 8 + (n.repr.length - 3) := by
  rw [width_of_tab_notMem (notMem_gutter (by decide) (by decide) n), gutter, toList_padded,
    ← String.length_toList]
  simp only [List.length_append, List.length_replicate]
  omega

/-- Numbers of three digits leave room. -/
theorem width_gutter_eq_iff (n : Nat) : width (gutter n) = 8 ↔ n < 1000 := by
  have hdigits := Nat.length_repr_le_iff (n := n) (k := 3) (by decide)
  rw [width_gutter]
  omega

end Report

namespace SourceFile

variable {f : SourceFile} {start lineStart length i : Nat} {line : List Char}

/-- **The lines of a snippet**, after the end of the line before it. -/
theorem InLine.lines_eq (h : f.InLine start i lineStart line) (ht : NoLoneReturn f.text)
    (hsize : byteLength f.text ≤ maxOffset) (hlength : 1 ≤ length) :
    (paint false (f.snippet start length)).toList.splitOn '\n' =
      [[], gutter (i + 1) ++ line,
        List.replicate (8 + width (charactersAt (· < start) lineStart line)) ' ' ++
          '~' :: List.replicate (width (charactersAt (fun n => start ≤ n ∧ n < start + length)
            lineStart line) - 1) '~'] := by
  obtain ⟨p, x, y, q, -, -, -, hno, -⟩ := h.exists_split
  rw [h.snippet_eq ht hlength, paint_snippet, h.underline_eq hsize]
  generalize width (charactersAt (· < start) lineStart line) = blanks
  generalize width (charactersAt (fun n => start ≤ n ∧ n < start + length) lineStart line) = tildes
  have htildes : List.replicate (max tildes 1) '~' = '~' :: List.replicate (tildes - 1) '~' := by
    rw [← List.replicate_succ]
    congr 1
    omega
  have htext : ("\n  " ++ padded (i + 1) ++ "   " ++ String.ofList line ++ "\n        " ++
      String.ofList (List.replicate blanks ' ' ++ List.replicate (max tildes 1) '~')).toList =
      [] ++ '\n' :: (gutter (i + 1) ++ line ++ '\n' :: (List.replicate (8 + blanks) ' ' ++
        '~' :: List.replicate (tildes - 1) '~')) := by
    rw [htildes, List.replicate_add]
    simp [gutter, List.replicate_succ]
  have habove : '\n' ∉ gutter (i + 1) ++ line := by
    simpa using ⟨notMem_gutter (by decide) (by decide) (i + 1), hno⟩
  rw [htext, List.splitOn_append_cons_self_of_not_mem List.not_mem_nil,
    List.splitOn_append_cons_self_of_not_mem habove, List.splitOn_eq_singleton (by simp)]

/--
**Where an underline begins.** In a text without lone returns, the underline of a place at a
character begins below this character exactly up to line 999. Further down it begins too far to the
left, by one column for each digit beyond the third.
-/
theorem alignment_spec (h : f.InLine start i lineStart line)
    (hchar : start < lineStart + byteLength line) (ht : NoLoneReturn f.text)
    (hsize : byteLength f.text ≤ maxOffset) (hlength : 1 ≤ length) :
    f.checkedSnippet? start length = some (f.snippet start length) ∧
    ∃ before c after blanks tildes,
      line = before ++ c :: after ∧ lineStart + byteLength before = start ∧
      (paint false (f.snippet start length)).toList.splitOn '\n' =
        [[], gutter (i + 1) ++ before ++ c :: after, blanks ++ '~' :: tildes] ∧
      '~' ∉ blanks ∧
      width (gutter (i + 1) ++ before) = width blanks + ((i + 1).repr.length - 3) ∧
      (width (gutter (i + 1) ++ before) = width blanks ↔ i + 1 < 1000) := by
  refine ⟨checkedSnippet?_eq (h.shows ht hsize) hsize length, ?_⟩
  have hlines := h.lines_eq ht hsize hlength
  obtain ⟨p, before, y, q, -, rfl, -, -, -, rfl, -, -⟩ := h.exists_split
  obtain ⟨c, after, rfl⟩ : ∃ c after, y = c :: after := by
    refine List.exists_cons_of_ne_nil fun hnil => ?_
    rw [hnil, List.append_nil] at hchar
    exact Nat.lt_irrefl _ hchar
  rw [charactersAt_lt_append, ← List.append_assoc] at hlines
  have hblanks : width (List.replicate (8 + width before) ' ') = 8 + width before := by
    rw [width_of_tab_notMem (by simp), List.length_replicate]
  have hgutter := width_gutter (i + 1)
  have hdigits := width_gutter_eq_iff (i + 1)
  refine ⟨before, c, after, _, _, rfl, rfl, hlines, by simp, ?_, ?_⟩
  · rw [width_append, hblanks]
    omega
  · rw [width_append, hblanks]
    omega

/-- The underline of a character of two bytes behind a tab. -/
theorem alignment_spec_behind_tab :
    let f : SourceFile := ⟨"a.cc", ['x', '\n', '\t', 'é', 'b']⟩
    f.InLine 3 1 2 ['\t', 'é', 'b'] ∧ 3 < 2 + byteLength ['\t', 'é', 'b'] ∧ NoLoneReturn f.text ∧
      byteLength f.text ≤ maxOffset ∧ 1 ≤ 2 ∧
      f.checkedSnippet? 3 2 = some (f.snippet 3 2) ∧
      ∃ before c after blanks tildes,
        ['\t', 'é', 'b'] = before ++ c :: after ∧ 2 + byteLength before = 3 ∧
        (paint false (f.snippet 3 2)).toList.splitOn '\n' =
          [[], gutter 2 ++ before ++ c :: after, blanks ++ '~' :: tildes] ∧
        '~' ∉ blanks ∧ width (gutter 2 ++ before) = width blanks := by
  intro f
  have hline : f.InLine 3 1 2 ['\t', 'é', 'b'] :=
    ⟨by decide +kernel, by decide +kernel, by decide +kernel, by decide, by decide⟩
  have hchar : 3 < 2 + byteLength ['\t', 'é', 'b'] := by decide
  have ht : NoLoneReturn f.text := by decide +kernel
  have hsize : byteLength f.text ≤ maxOffset := by decide +kernel
  have hlength : 1 ≤ 2 := by decide
  obtain ⟨hchecked, before, c, after, blanks, tildes, hsplit, hbegin, hlines, hno, -, hiff⟩ :=
    alignment_spec hline hchar ht hsize hlength
  exact ⟨hline, hchar, ht, hsize, hlength, hchecked, before, c, after, blanks, tildes, hsplit,
    hbegin, hlines, hno, hiff.2 (by decide)⟩

/-- On line 1000 the underline of the character `a` begins one column to the left of it. -/
theorem thousandth_line_misaligned :
    let f : SourceFile := ⟨"a.cc", List.replicate 999 '\n' ++ ['a']⟩
    '\r' ∉ f.text ∧ f.InLine 999 999 999 ['a'] ∧
      (paint false (f.snippet 999 1)).toList.splitOn '\n' =
        [[], "  1000   ".toList ++ ['a'], "        ".toList ++ ['~']] ∧
      width "  1000   ".toList = 9 ∧ width "        ".toList = 8 := by
  intro f
  refine ⟨by decide +kernel, ⟨by decide +kernel, by decide +kernel, by decide +kernel, by decide,
    by decide⟩, by decide +kernel, by decide +kernel, by decide +kernel⟩

end SourceFile

end ConstructorCheck
