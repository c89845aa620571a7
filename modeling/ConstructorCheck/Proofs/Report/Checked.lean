import ConstructorCheck.Proofs.Report.Lines
import ConstructorCheck.Proofs.Results
import ConstructorCheck.Report.Checked
/-!
# Reports with checked offsets

A reporter that computes with offsets of 32 bits makes the same report as one that does not, as long
as its sources are not too long and the places lie between two characters.

* `SourceFile.Shows` — the places that can be shown
* `SourceFile.checkedLocation?_eq`, `SourceFile.checkedSnippet?_eq` — places and snippets
* `Report.Reporter.render_of_shows` — a report on places that can be shown
* `Report.Reporter.render?_of_checked` — a report that is made at all

The sums of a snippet go along the displayed line, which ends in the text.
-/

namespace ConstructorCheck

open Text Report

theorem eq_add_of_checkedAdd? {m n k : Nat} (h : checkedAdd? m n = some k) : k = m + n :=
  (Option.some.inj (Option.ite_none_right_eq_some.1 h).2).symm

theorem eq_sub_of_checkedSub? {m n k : Nat} (h : checkedSub? m n = some k) : k = m - n :=
  (Option.some.inj (Option.ite_none_right_eq_some.1 h).2).symm

namespace Report

theorem lastNewline?_of_not_mem {l : List Char} (hl : '\n' ∉ l) : lastNewline? l = none := by
  induction l with
  | nil => rfl
  | cons c r ih =>
    rw [List.mem_cons, not_or] at hl
    rw [lastNewline?, ih hl.2]
    exact if_neg (Ne.symm hl.1)

theorem lastNewline?_append (q : List Char) {l : List Char} (hl : '\n' ∉ l) :
    lastNewline? (q ++ '\n' :: l) = some (byteLength q) := by
  induction q with
  | nil => simp [lastNewline?, lastNewline?_of_not_mem hl]
  | cons c q ih => rw [List.cons_append, lastNewline?, ih, byteLength_cons]

/-- Marks can be counted as long as the line does not go beyond the offsets. -/
theorem checkedMarks?_eq (start stop : Nat) {offset : Nat} {l : List Char}
    (hl : offset + byteLength l ≤ maxOffset) :
    checkedMarks? start stop offset l = some (marks start stop offset l) := by
  induction l generalizing offset with
  | nil => rfl
  | cons c r ih =>
    rw [byteLength_cons, ← Nat.add_assoc] at hl
    rw [checkedMarks?, marks]
    split
    · rfl
    · rw [checkedAdd?, if_pos (Nat.le_trans (Nat.le_add_right _ _) hl), Option.bind_eq_bind,
        Option.bind_some, ih hl]
      rfl

theorem eq_marks_of_checkedMarks? {start stop offset : Nat} {l ms : List Char}
    (h : checkedMarks? start stop offset l = some ms) : ms = marks start stop offset l := by
  induction l generalizing offset ms with
  | nil => exact (Option.some.inj h).symm
  | cons c r ih =>
    rw [checkedMarks?] at h
    rw [marks]
    split at h
    · next hstop => rw [if_pos hstop, Option.some.inj h]
    · next hstop =>
      obtain ⟨next, hnext, h⟩ := Option.bind_eq_some_iff.1 h
      obtain ⟨rest, hrest, h⟩ := Option.bind_eq_some_iff.1 h
      rw [if_neg hstop, ← eq_add_of_checkedAdd? hnext, ← ih hrest]
      exact (Option.some.inj h).symm

end Report

namespace SourceFile

variable {f : SourceFile} {n k : Nat} {front : List Char} {place : String}

/-- An offset whose place can be shown: it can be cut at, and its line can be counted. -/
structure Shows (f : SourceFile) (n : Nat) : Prop where
  boundary : isBoundary n f.text = true
  line_lt : f.lines.lineAt n < maxOffset

theorem splitsCharacter_eq_false (hn : isBoundary n f.text = true) :
    f.splitsCharacter n = false := by
  rw [splitsCharacter, Nat.min_eq_left (le_of_isBoundary hn), hn]
  rfl

theorem checkedLineOf?_eq (hn : f.Shows n) : f.checkedLineOf? n = some (f.lineOf n) :=
  if_pos hn.line_lt

theorem checkedBefore?_eq (hn : isBoundary n f.text = true) :
    f.checkedBefore? n = some (f.before n) := by
  obtain ⟨a, b, ht, rfl⟩ := isBoundary_iff.1 hn
  have hslice := slice?_append [] a b
  rw [byteLength_nil, List.nil_append] at hslice
  rw [before_eq ht, checkedBefore?, Nat.min_eq_left (le_of_isBoundary hn), ht]
  exact hslice

theorem checkedColumn?_eq (hn : isBoundary n f.text = true) :
    f.checkedColumn? n = some (byteLength (f.lineBefore n)) := by
  obtain ⟨p, b, ht, hp, hno, hlen⟩ := exists_line_start hn
  have hfront : f.before n = p ++ f.lineBefore n := by
    have hbefore := before_eq ht
    rwa [byteLength_append, hlen] at hbefore
  rw [checkedColumn?, checkedBefore?_eq hn, hfront, Nat.min_eq_left (le_of_isBoundary hn)]
  rcases hp with rfl | ⟨q, rfl⟩
  · rw [List.nil_append, Option.bind_eq_bind, Option.bind_some, lastNewline?_of_not_mem hno]
    rw [byteLength_nil, Nat.zero_add] at hlen
    rw [hlen]
    rfl
  · -- one byte for the newline lies between the complete lines and the rest
    have hnewline : byteLength (q ++ ['\n']) = byteLength q + 1 := by
      rw [byteLength_append]
      rfl
    rw [List.append_assoc, List.singleton_append, Option.bind_eq_bind, Option.bind_some,
      lastNewline?_append q hno]
    simp only [checkedSub?, Option.bind_eq_bind]
    rw [if_pos (by omega), Option.bind_some, if_pos (by omega)]
    congr 1
    omega

/-- **A place that can be shown is shown with checked offsets.** -/
theorem checkedLocation?_eq (hn : f.Shows n) : f.checkedLocation? n = some (f.location n) := by
  rw [checkedLocation?, checkedLineOf?_eq hn, checkedBefore?_eq hn.boundary]
  rfl

/-- **So is a snippet**, of a source that is not too long. -/
theorem checkedSnippet?_eq (hn : f.Shows n) (hf : byteLength f.text ≤ maxOffset) (length : Nat) :
    f.checkedSnippet? n length = some (f.snippet n length) := by
  rw [checkedSnippet?, snippet]
  by_cases hempty : length = 0
  · rw [if_pos hempty, if_pos hempty]
  · rw [if_neg hempty, if_neg hempty, checkedLineOf?_eq hn, Option.bind_eq_bind, Option.bind_some]
    have hindex : checkedSub? (f.lineOf n) 1 = some (f.lineOf n - 1) :=
      if_pos (Nat.le_add_left 1 _)
    rw [hindex, Option.bind_eq_bind, Option.bind_some]
    cases hline : f.shownLine? n with
    | none =>
      rw [shownLine?] at hline
      simp only [hline]
      rfl
    | some line =>
      have hend := add_shownLine_le hn.boundary hline
      obtain ⟨p, b, -, -, -, hlen⟩ := exists_line_start hn.boundary
      have hstart : checkedSub? n (byteLength (f.lineBefore n)) =
          some (n - byteLength (f.lineBefore n)) := if_pos (by omega)
      rw [shownLine?] at hline
      simp only [hline, checkedColumn?_eq hn.boundary, Option.bind_some, hstart,
        checkedMarks?_eq _ _ (Nat.le_trans hend hf)]
      rfl

theorem eq_lineOf_of_checkedLineOf? (h : f.checkedLineOf? n = some k) : k = f.lineOf n :=
  eq_add_of_checkedAdd? h

/-- The text before an offset is cut off between two characters. -/
theorem checkedBefore?_eq_some (h : f.checkedBefore? n = some front) :
    front = f.before n ∧ isBoundary (min n (byteLength f.text)) f.text = true := by
  rw [checkedBefore?] at h
  obtain ⟨a, b, ht, ha, hlen⟩ := slice?_eq_some h
  refine ⟨by rw [before, slice, h]; rfl, isBoundary_iff.2 ⟨a ++ front, b, ht, ?_⟩⟩
  rw [byteLength_append, ha, hlen]

/-- An offset past the end counts as the end. -/
theorem checkedColumn?_min (f : SourceFile) (n : Nat) :
    f.checkedColumn? (min n (byteLength f.text)) = f.checkedColumn? n := by
  simp only [checkedColumn?, checkedBefore?, Nat.min_assoc, Nat.min_self]

theorem lineBefore_min (f : SourceFile) (n : Nat) :
    f.lineBefore (min n (byteLength f.text)) = f.lineBefore n := by
  simp only [lineBefore, before, Nat.min_assoc, Nat.min_self]

theorem eq_of_checkedColumn? (h : f.checkedColumn? n = some k) :
    k = byteLength (f.lineBefore n) := by
  obtain ⟨front, hfront, -⟩ := Option.bind_eq_some_iff.1 h
  have hcolumn := checkedColumn?_eq (checkedBefore?_eq_some hfront).2
  rw [checkedColumn?_min, h, lineBefore_min] at hcolumn
  exact Option.some.inj hcolumn

/-- **A place that is shown with checked offsets** can be cut at; checking does not change it. -/
theorem checkedLocation?_eq_some (h : f.checkedLocation? n = some place) :
    f.splitsCharacter n = false ∧ place = f.location n := by
  obtain ⟨line, hline, h⟩ := Option.bind_eq_some_iff.1 h
  obtain ⟨front, hfront, h⟩ := Option.bind_eq_some_iff.1 h
  obtain ⟨hbefore, hboundary⟩ := checkedBefore?_eq_some hfront
  refine ⟨by rw [splitsCharacter, hboundary]; rfl, ?_⟩
  rw [location, lineBefore, ← hbefore, ← eq_lineOf_of_checkedLineOf? hline]
  exact (Option.some.inj h).symm

/-- **A snippet that is made with checked offsets** is not changed by checking. -/
theorem checkedSnippet?_eq_some {length : Nat} {xs : List Fragment}
    (h : f.checkedSnippet? n length = some xs) : xs = f.snippet n length := by
  rw [checkedSnippet?] at h
  rw [snippet]
  split at h
  · next hempty => rw [if_pos hempty, Option.some.inj h]
  · next hempty =>
    obtain ⟨line, hline, h⟩ := Option.bind_eq_some_iff.1 h
    obtain ⟨index, hindex, h⟩ := Option.bind_eq_some_iff.1 h
    rw [eq_sub_of_checkedSub? hindex, eq_lineOf_of_checkedLineOf? hline] at h
    rw [if_neg hempty, shownLine?]
    cases hshown : (displayLines f.text)[f.lineOf n - 1]? with
    | none =>
      rw [hshown] at h
      exact (Option.some.inj h).symm
    | some shown =>
      rw [hshown] at h
      obtain ⟨column, hcolumn, h⟩ := Option.bind_eq_some_iff.1 h
      obtain ⟨lineStart, hstart, h⟩ := Option.bind_eq_some_iff.1 h
      obtain ⟨ms, hms, h⟩ := Option.bind_eq_some_iff.1 h
      rw [eq_sub_of_checkedSub? hstart, eq_of_checkedColumn? hcolumn] at hms
      rw [eq_marks_of_checkedMarks? hms] at h
      exact (Option.some.inj h).symm

end SourceFile

namespace Report.Reporter

variable {r : Reporter} {file place : String} {n : Nat} {d : Diagnostic} {xs : List Fragment}

/-- A place in a known source that is not too long, and where it can be shown. -/
def Shows (r : Reporter) (file : String) (n : Nat) : Prop :=
  ∃ f, r.source? file = some f ∧ byteLength f.text ≤ maxOffset ∧ f.Shows n

theorem exists_location_of_shows (hn : r.Shows file n) :
    ∃ place, r.checkedLocation? file n = some place ∧ r.location? file n = some place := by
  obtain ⟨f, hf, -, hn⟩ := hn
  refine ⟨f.location n, ?_, ?_⟩
  · rw [checkedLocation?, hf]
    exact SourceFile.checkedLocation?_eq hn
  · rw [location?, hf]
    exact if_neg (by simp [SourceFile.splitsCharacter_eq_false hn.boundary])

theorem checkedSnippet?_of_shows (hn : r.Shows file n) (length : Nat) :
    r.checkedSnippet? file n length = some (r.snippet file n length) := by
  obtain ⟨f, hf, hlen, hn⟩ := hn
  rw [checkedSnippet?, snippet, hf]
  exact SourceFile.checkedSnippet?_eq hn hlen length

/-- Two computations whose steps agree and succeed agree and succeed. -/
theorem exists_mapM_of_agree {α β : Type} {g k : α → Option β} {l : List α}
    (hall : ∀ a ∈ l, ∃ b, g a = some b ∧ k a = some b) :
    ∃ bs, l.mapM g = some bs ∧ l.mapM k = some bs := by
  induction l with
  | nil => exact ⟨[], rfl, rfl⟩
  | cons a l ih =>
    obtain ⟨⟨b, hg, hk⟩, hall⟩ := List.forall_mem_cons.1 hall
    obtain ⟨bs, hgs, hks⟩ := ih hall
    exact ⟨b :: bs, by rw [List.mapM_cons, hg, hgs]; rfl, by rw [List.mapM_cons, hk, hks]; rfl⟩

theorem exists_diagnostic_of_shows (hd : r.Shows d.file d.start)
    (hnotes : ∀ x ∈ d.notes, r.Shows x.file x.start) :
    ∃ xs, r.checkedDiagnostic? d = some xs ∧ r.diagnostic? d = some xs := by
  obtain ⟨place, hchecked, hplace⟩ := exists_location_of_shows hd
  obtain ⟨notes, hcheckedNotes, hplainNotes⟩ := exists_mapM_of_agree (g := r.checkedNote?)
    (k := r.note?) fun x hx => by
      obtain ⟨place, hchecked, hplace⟩ := exists_location_of_shows (hnotes x hx)
      exact ⟨_, congrArg (Option.map _) hchecked, congrArg (Option.map _) hplace⟩
  have hsame : r.checkedDiagnostic? d = r.diagnostic? d := by
    rw [checkedDiagnostic?, diagnostic?, hchecked, hplace, checkedSnippet?_of_shows hd,
      hcheckedNotes, hplainNotes]
    rfl
  have hsome : ∃ xs, r.diagnostic? d = some xs := by
    rw [diagnostic?, hplace, hplainNotes]
    exact ⟨_, rfl⟩
  obtain ⟨xs, hxs⟩ := hsome
  exact ⟨xs, hsame.trans hxs, hxs⟩

/-- **A report on places that can be shown** is made, and checked offsets do not change it. -/
theorem render_of_shows {ds : List Diagnostic} (color : Bool)
    (hds : ∀ d ∈ ds, r.Shows d.file d.start ∧ ∀ x ∈ d.notes, r.Shows x.file x.start) :
    ∃ text, r.checkedRender? color ds = some text ∧ r.render? color ds = some text := by
  obtain ⟨xs, hchecked, hplain⟩ := exists_mapM_of_agree (g := r.checkedDiagnostic?)
    (k := r.diagnostic?) fun d hd => exists_diagnostic_of_shows (hds d hd).1 (hds d hd).2
  exact ⟨paint color ([Fragment.plain "\n"].intercalate xs), by rw [checkedRender?, hchecked]; rfl,
    by rw [render?, fragments?, hplain]; rfl⟩

theorem location?_of_checked (h : r.checkedLocation? file n = some place) :
    r.location? file n = some place := by
  rw [checkedLocation?] at h
  rw [location?]
  cases hf : r.source? file with
  | none => rwa [hf] at h
  | some f =>
    rw [hf] at h
    obtain ⟨hcut, rfl⟩ := SourceFile.checkedLocation?_eq_some h
    exact if_neg (by simp [hcut])

theorem snippet_of_checked {length : Nat} (h : r.checkedSnippet? file n length = some xs) :
    xs = r.snippet file n length := by
  rw [checkedSnippet?] at h
  rw [snippet]
  cases hf : r.source? file with
  | none =>
    rw [hf] at h
    exact (Option.some.inj h).symm
  | some f =>
    rw [hf] at h
    exact SourceFile.checkedSnippet?_eq_some h

theorem note?_of_checked {x : Note} (h : r.checkedNote? x = some xs) :
    r.note? x = some xs := by
  obtain ⟨place, hplace, rfl⟩ := Option.map_eq_some_iff.1 h
  rw [note?, location?_of_checked hplace]
  rfl

/-- Steps that make the same results come to the same results. -/
theorem mapM_of_refines {α β : Type} {g k : α → Option β} {l : List α} {bs : List β}
    (hall : ∀ a b, g a = some b → k a = some b) (h : l.mapM g = some bs) : l.mapM k = some bs := by
  rw [mapM_eq_some_iff] at h ⊢
  rw [← h]
  refine List.map_congr_left fun a ha => ?_
  have hmem := List.mem_map_of_mem (f := g) ha
  rw [h] at hmem
  obtain ⟨b, -, hb⟩ := List.mem_map.1 hmem
  rw [← hb, hall a b hb.symm]

theorem diagnostic?_of_checked (h : r.checkedDiagnostic? d = some xs) :
    r.diagnostic? d = some xs := by
  obtain ⟨place, hplace, h⟩ := Option.bind_eq_some_iff.1 h
  obtain ⟨snippet, hsnippet, h⟩ := Option.bind_eq_some_iff.1 h
  obtain ⟨notes, hnotes, h⟩ := Option.bind_eq_some_iff.1 h
  rw [diagnostic?, location?_of_checked hplace,
    mapM_of_refines (fun _ _ => note?_of_checked) hnotes, ← snippet_of_checked hsnippet]
  exact h

theorem fragments?_of_checked {ds : List Diagnostic}
    (h : ((ds.mapM r.checkedDiagnostic?).map fun ls => [Fragment.plain "\n"].intercalate ls) =
      some xs) : r.fragments? ds = some xs := by
  obtain ⟨ls, hls, rfl⟩ := Option.map_eq_some_iff.1 h
  rw [fragments?, mapM_of_refines (fun _ _ => diagnostic?_of_checked) hls]
  rfl

/-- **A report that is made with checked offsets** is not changed by checking. -/
theorem render?_of_checked {color : Bool} {ds : List Diagnostic} {text : String}
    (h : r.checkedRender? color ds = some text) : r.render? color ds = some text := by
  obtain ⟨xs, hxs, rfl⟩ := Option.map_eq_some_iff.1 h
  rw [render?, fragments?_of_checked hxs]
  rfl

end Report.Reporter

end ConstructorCheck
