import ConstructorCheck.Proofs.Report.Underline
/-!
# Reports with colours

A report with colours is the report without them, with escapes in it. As long as the sources, files
and texts have no escape character of their own, taking the escapes out gives back the report
without colours, and every style is ended before the next one begins.

* `pieces` — the characters and the escapes of a text
* `withoutEscapes`, `escapes` — the one and the other
* `TakeTurns` — every style is ended before the next one begins
* `pieces_paint` — fragments are read back from painted text
* `Reporter.notMem_of_diagnostic?` — a diagnostic brings in no escape character
* `Reporter.render_colors_spec` — what colours do to a report

All of it rests on where escapes begin: the escape character stands in no fragment, so that painted
text falls into escapes and fragments in one way only.
-/

namespace ConstructorCheck

/-- A note whose file and text have no escape character. -/
structure Note.EscapeFree (x : Note) : Prop where
  file : '\x1b' ∉ x.file.toList
  text : '\x1b' ∉ x.text.toList

/-- A diagnostic whose files and texts have no escape character. -/
structure Diagnostic.EscapeFree (d : Diagnostic) : Prop where
  file : '\x1b' ∉ d.file.toList
  text : '\x1b' ∉ d.text.toList
  notes : ∀ x ∈ d.notes, x.EscapeFree

instance (x : Note) : Decidable x.EscapeFree :=
  decidable_of_iff ('\x1b' ∉ x.file.toList ∧ '\x1b' ∉ x.text.toList)
    ⟨fun h => ⟨h.1, h.2⟩, fun h => ⟨h.file, h.text⟩⟩

instance (d : Diagnostic) : Decidable d.EscapeFree :=
  decidable_of_iff ('\x1b' ∉ d.file.toList ∧ '\x1b' ∉ d.text.toList ∧ ∀ x ∈ d.notes, x.EscapeFree)
    ⟨fun h => ⟨h.1, h.2.1, h.2.2⟩, fun h => ⟨h.file, h.text, h.notes⟩⟩

open Text

namespace Report

/-! ## Escapes in a text -/

/-- A character of a text, or an escape with its parameters. -/
inductive Piece where
  | character (c : Char)
  | escape (codes : List Char)
deriving DecidableEq, Repr

/-- The character of a piece that is no escape. -/
def Piece.character? : Piece → Option Char
  | .character c => some c
  | .escape _ => none

/-- The parameters of an escape. -/
def Piece.codes? : Piece → Option (List Char)
  | .character _ => none
  | .escape codes => some codes

/-- The parameters of the escape with which a text begins; it ends with the first `m`. -/
def escapeAt? : List Char → Option (List Char)
  | '\x1b' :: '[' :: r => if 'm' ∈ r then some (r.takeWhile (· ≠ 'm')) else none
  | _ => none

/-- The pieces of a text behind its first `n` characters. -/
def piecesAfter : Nat → List Char → List Piece
  | _, [] => []
  | n + 1, _ :: r => piecesAfter n r
  | 0, c :: r =>
    match escapeAt? (c :: r) with
    | some codes => .escape codes :: piecesAfter (codes.length + 2) r
    | none => .character c :: piecesAfter 0 r

/-- The characters and the escapes of a text, from left to right. -/
def pieces (t : List Char) : List Piece := piecesAfter 0 t

/-- A text without its escapes. -/
def withoutEscapes (text : String) : String :=
  String.ofList ((pieces text.toList).filterMap Piece.character?)

/-- The parameters of the escapes of a text. -/
def escapes (text : String) : List (List Char) := (pieces text.toList).filterMap Piece.codes?

/-- Escapes that open a style take turns with escapes that end it, and one of these comes last. -/
def TakeTurns : List (List Char) → Prop
  | [] => True
  | [_] => False
  | opening :: closing :: rest => opening ≠ ['0'] ∧ closing = ['0'] ∧ TakeTurns rest

variable {l r : List Char} {c : Char} {xs : List Fragment}

theorem piecesAfter_eq_drop (n : Nat) (t : List Char) : piecesAfter n t = pieces (t.drop n) := by
  induction t generalizing n with
  | nil =>
    rw [List.drop_nil]
    cases n <;> rfl
  | cons c r ih =>
    cases n with
    | zero => rfl
    | succ n => exact ih n

theorem escapeAt?_eq_none (hc : c ≠ '\x1b') (r : List Char) : escapeAt? (c :: r) = none := by
  unfold escapeAt?
  split
  · next heq => exact absurd (List.cons.inj heq).1 hc
  · rfl

/-- Characters other than the escape character stand for themselves. -/
theorem pieces_append (hl : '\x1b' ∉ l) (r : List Char) :
    pieces (l ++ r) = l.map .character ++ pieces r := by
  induction l with
  | nil => rfl
  | cons c l ih =>
    rw [List.mem_cons, not_or] at hl
    rw [List.cons_append, pieces, piecesAfter, escapeAt?_eq_none (Ne.symm hl.1)]
    exact congrArg (Piece.character c :: ·) (ih hl.2)

/-- **An escape is read back**, whatever follows. -/
theorem pieces_escape_append {codes : String} (hm : 'm' ∉ codes.toList) (r : List Char) :
    pieces (escape codes ++ r) = .escape codes.toList :: pieces r := by
  have htext : escape codes ++ r = '\x1b' :: '[' :: (codes.toList ++ 'm' :: r) := by simp [escape]
  have htake : (codes.toList ++ 'm' :: r).takeWhile (· ≠ 'm') = codes.toList := by
    rw [List.takeWhile_append_of_pos fun c hc => by
      simpa using fun heq : c = 'm' => hm (heq ▸ hc), List.takeWhile_cons_of_neg (by simp),
      List.append_nil]
  have hat : escapeAt? ('\x1b' :: '[' :: (codes.toList ++ 'm' :: r)) = some codes.toList := by
    rw [escapeAt?, if_pos (by simp), htake]
  have hrest : ('[' :: (codes.toList ++ 'm' :: r)).drop (codes.toList.length + 2) = r := by
    rw [List.drop_succ_cons, List.drop_append]
    simp
  rw [htext, pieces, piecesAfter, hat]
  simp only [piecesAfter_eq_drop, hrest]

/-- What begins like an escape and does not end like one stands for itself. -/
example : withoutEscapes "a\x1b[1;31mb\x1b[0m\x1b[1" = "ab\x1b[1" := by decide +kernel

/-! ## Painted text -/

theorem m_notMem_codes (s : Style) : 'm' ∉ s.codes.toList := by cases s <;> decide

theorem codes_ne_reset (s : Style) : s.codes.toList ≠ ['0'] := by cases s <;> decide

/-- What a fragment adds to the pieces of a text with colours. -/
def Fragment.pieces (x : Fragment) : List Piece :=
  let characters := x.text.toList.map .character
  match x.style? with
  | some s => .escape s.codes.toList :: characters ++ [.escape ['0']]
  | none => characters

/-- A fragment is read back from painted text. -/
theorem pieces_paint_append {x : Fragment} (hx : '\x1b' ∉ x.text.toList) (r : List Char) :
    pieces (x.paint true ++ r) = x.pieces ++ pieces r := by
  obtain ⟨style, text⟩ := x
  cases style with
  | none => exact pieces_append hx r
  | some s =>
    have hpaint : Fragment.paint true ⟨some s, text⟩ = escape s.codes ++ text.toList ++ reset := by
      show escape s.codes ++ replaceAll reset _ text.toList ++ reset = _
      rw [replaceAll_of_notMem (by simp [reset, escape]) hx]
    rw [hpaint, List.append_assoc, List.append_assoc, pieces_escape_append (m_notMem_codes s),
      pieces_append hx, reset, pieces_escape_append (by decide)]
    simp [Fragment.pieces]

/-- **Fragments are read back from painted text.** -/
theorem pieces_paint (hxs : ∀ x ∈ xs, '\x1b' ∉ x.text.toList) :
    pieces (paint true xs).toList = xs.flatMap Fragment.pieces := by
  rw [paint, String.toList_ofList]
  induction xs with
  | nil => rfl
  | cons x xs ih =>
    rw [List.forall_mem_cons] at hxs
    rw [List.flatMap_cons, pieces_paint_append hxs.1, ih hxs.2, List.flatMap_cons]

theorem filterMap_character?_map (l : List Char) :
    (l.map Piece.character).filterMap Piece.character? = l := by
  rw [List.filterMap_map]
  exact List.filterMap_some

theorem filterMap_codes?_map (l : List Char) :
    (l.map Piece.character).filterMap Piece.codes? = [] := by
  rw [List.filterMap_map]
  exact List.filterMap_eq_nil_iff.2 fun _ _ => rfl

/-- The characters of a fragment are its text. -/
theorem filterMap_character?_pieces (x : Fragment) :
    x.pieces.filterMap Piece.character? = x.paint false := by
  obtain ⟨_ | s, text⟩ := x
  · exact filterMap_character?_map text.toList
  · show List.filterMap Piece.character? (.escape _ :: _ ++ [.escape _]) = text.toList
    rw [List.filterMap_append, List.filterMap_cons_none rfl, filterMap_character?_map]
    exact List.append_nil _

/-- A fragment with a style has an escape in front of its text and one behind it. -/
theorem filterMap_codes?_pieces (x : Fragment) :
    x.pieces.filterMap Piece.codes? =
      x.style?.toList.flatMap fun s => [s.codes.toList, ['0']] := by
  obtain ⟨_ | s, text⟩ := x
  · exact filterMap_codes?_map text.toList
  · show List.filterMap Piece.codes? (.escape _ :: _ ++ [.escape _]) = [s.codes.toList, ['0']]
    have hopening : Piece.codes? (.escape s.codes.toList) = some s.codes.toList := rfl
    rw [List.filterMap_append, List.filterMap_cons_some hopening, filterMap_codes?_map]
    rfl

/-- **Without its escapes painted text is plain.** -/
theorem withoutEscapes_paint (hxs : ∀ x ∈ xs, '\x1b' ∉ x.text.toList) :
    withoutEscapes (paint true xs) = paint false xs := by
  rw [withoutEscapes, pieces_paint hxs, List.filterMap_flatMap, paint]
  simp only [filterMap_character?_pieces]

/-- **Every style in painted text is ended** before the next one begins. -/
theorem takeTurns_escapes_paint (hxs : ∀ x ∈ xs, '\x1b' ∉ x.text.toList) :
    TakeTurns (escapes (paint true xs)) := by
  rw [escapes, pieces_paint hxs, List.filterMap_flatMap]
  simp only [filterMap_codes?_pieces]
  clear hxs
  induction xs with
  | nil => trivial
  | cons x xs ih =>
    obtain ⟨_ | s, text⟩ := x
    · exact ih
    · exact ⟨codes_ne_reset s, rfl, ih⟩

/-- Fragments without escape characters, if there are any, painted in both ways. -/
theorem map_withoutEscapes_map_paint {o : Option (List Fragment)}
    (hmade : ∀ xs, o = some xs → ∀ x ∈ xs, '\x1b' ∉ x.text.toList) :
    (o.map (paint true)).map withoutEscapes = o.map (paint false) ∧
      ∀ text, o.map (paint true) = some text → TakeTurns (escapes text) := by
  cases o with
  | none => exact ⟨rfl, fun _ h => nomatch h⟩
  | some xs =>
    have hxs := hmade xs rfl
    refine ⟨congrArg some (withoutEscapes_paint hxs), fun text htext => ?_⟩
    rw [← Option.some.inj htext]
    exact takeTurns_escapes_paint hxs

/-! ## What a report is put together from -/

theorem notMem_toDigits (n : Nat) : '\x1b' ∉ Nat.toDigits 10 n := by
  rw [← Nat.toList_repr]
  exact notMem_repr (by decide) n

theorem notMem_categoryLabel (k : Category) : '\x1b' ∉ (categoryLabel k).toList := by
  cases k <;> decide

/-- What comes from a list of parts comes from a part or a separator. -/
theorem exists_of_mem_intercalate {α : Type} {x : α} {sep : List α} {ls : List (List α)}
    (hx : x ∈ sep.intercalate ls) : x ∈ sep ∨ ∃ l ∈ ls, x ∈ l := by
  induction ls with
  | nil => cases hx
  | cons l ls ih =>
    cases ls with
    | nil => exact Or.inr ⟨l, List.mem_singleton_self l, by simpa using hx⟩
    | cons k ls =>
      rw [List.intercalate_cons_cons, List.mem_append, List.mem_append] at hx
      rcases hx with (hx | hx) | hx
      · exact Or.inr ⟨l, List.mem_cons_self, hx⟩
      · exact Or.inl hx
      · exact (ih hx).imp_right fun ⟨m, hm, hx⟩ => ⟨m, List.mem_cons_of_mem l hm, hx⟩

end Report

namespace SourceFile

open Report

variable {f : SourceFile}

theorem notMem_location (hname : '\x1b' ∉ f.name.toList) (n : Nat) :
    '\x1b' ∉ (f.location n).toList := by
  simp [location, hname, notMem_toDigits]

/-- A snippet has no escape character if its source has none. -/
theorem notMem_snippet (htext : '\x1b' ∉ f.text) {start length : Nat} :
    ∀ x ∈ f.snippet start length, '\x1b' ∉ x.text.toList := by
  rw [snippet]
  split
  · simp
  · split
    · simp
    · next line hline =>
      have hdisplayed : line ∈ displayLines f.text := List.mem_of_getElem? hline
      have hno : '\x1b' ∉ line := fun hmem => htext (subset_of_mem_displayLines hdisplayed hmem)
      have hunderline : '\x1b' ∉ f.underlineAt start length line := fun hmem => by
        rcases mem_underline hmem with h | h <;> exact absurd h (by decide)
      have hnumber := notMem_padded (c := '\x1b') (by decide) (by decide) (f.lineOf start)
      simp [Fragment.plain, Fragment.styled, hno, hunderline, hnumber]

end SourceFile

namespace Report.Reporter

variable {r : Reporter} {file place : String} {n : Nat} {xs : List Fragment}

theorem source?_eq_some {f : SourceFile} (h : r.source? file = some f) :
    f ∈ r.sources ∧ f.name = file :=
  ⟨List.mem_reverse.1 (List.mem_of_find?_eq_some h), by simpa using List.find?_some h⟩

theorem notMem_of_location? (hfile : '\x1b' ∉ file.toList) (h : r.location? file n = some place) :
    '\x1b' ∉ place.toList := by
  rw [location?] at h
  split at h
  · rwa [← Option.some.inj h]
  · next f hf =>
    obtain ⟨-, rfl⟩ := source?_eq_some hf
    split at h
    · cases h
    · rw [← Option.some.inj h]
      exact SourceFile.notMem_location hfile n

theorem notMem_snippet (hr : ∀ f ∈ r.sources, '\x1b' ∉ f.text) (length : Nat) :
    ∀ x ∈ r.snippet file n length, '\x1b' ∉ x.text.toList := by
  rw [snippet]
  split
  · simp
  · next f hf => exact SourceFile.notMem_snippet (hr f (source?_eq_some hf).1)

theorem notMem_of_note? {note : Note} (hnote : note.EscapeFree) (h : r.note? note = some xs) :
    ∀ x ∈ xs, '\x1b' ∉ x.text.toList := by
  obtain ⟨place, hplace, rfl⟩ := Option.map_eq_some_iff.1 h
  have hno := notMem_of_location? hnote.file hplace
  simp [Fragment.plain, Fragment.styled, hno, hnote.text]

/-- **A diagnostic brings in no escape character** if it has none and the sources have none. -/
theorem notMem_of_diagnostic? (hr : ∀ f ∈ r.sources, '\x1b' ∉ f.text) {d : Diagnostic}
    (hd : d.EscapeFree) (h : r.diagnostic? d = some xs) : ∀ x ∈ xs, '\x1b' ∉ x.text.toList := by
  obtain ⟨place, hplace, h⟩ := Option.bind_eq_some_iff.1 h
  obtain ⟨notes, hnotes, h⟩ := Option.bind_eq_some_iff.1 h
  obtain rfl := Option.some.inj h
  rw [List.forall_mem_append, List.forall_mem_append]
  refine ⟨⟨?_, notMem_snippet hr d.length⟩, fun x hx => ?_⟩
  · have hno := notMem_of_location? hd.file hplace
    simp [Fragment.plain, Fragment.styled, hno, hd.text, notMem_toDigits, notMem_categoryLabel]
  · obtain ⟨ys, hys, hx⟩ := List.mem_flatten.1 hx
    obtain ⟨note, hnote, hmade⟩ := exists_of_mem_mapM_some hnotes hys
    exact notMem_of_note? (hd.notes note hnote) hmade x hx

theorem notMem_of_fragments? (hr : ∀ f ∈ r.sources, '\x1b' ∉ f.text) {ds : List Diagnostic}
    (hds : ∀ d ∈ ds, d.EscapeFree) (h : r.fragments? ds = some xs) :
    ∀ x ∈ xs, '\x1b' ∉ x.text.toList := by
  obtain ⟨ls, hls, rfl⟩ := Option.map_eq_some_iff.1 h
  intro x hx
  rcases exists_of_mem_intercalate hx with hx | ⟨l, hl, hx⟩
  · rw [List.mem_singleton.1 hx]
    decide
  · obtain ⟨d, hd, hmade⟩ := exists_of_mem_mapM_some hls hl
    exact notMem_of_diagnostic? hr (hds d hd) hmade x hx

/--
**What colours do to a report.** If no source, file or text has an escape character, a report with
colours is made exactly when one without them is, and without its escapes it is this one; every
style in it is ended before the next one begins. The same holds with checked offsets.
-/
theorem render_colors_spec (hr : ∀ f ∈ r.sources, '\x1b' ∉ f.text) {ds : List Diagnostic}
    (hds : ∀ d ∈ ds, d.EscapeFree) :
    (r.render? true ds).map withoutEscapes = r.render? false ds ∧
    (r.checkedRender? true ds).map withoutEscapes = r.checkedRender? false ds ∧
    (∀ text, r.render? true ds = some text → TakeTurns (escapes text)) ∧
    ∀ text, r.checkedRender? true ds = some text → TakeTurns (escapes text) := by
  obtain ⟨hplain, hturns⟩ := map_withoutEscapes_map_paint (o := r.fragments? ds)
    fun _ h => notMem_of_fragments? hr hds h
  obtain ⟨hchecked, hcheckedTurns⟩ := map_withoutEscapes_map_paint fun _ h =>
    notMem_of_fragments? hr hds (fragments?_of_checked (r := r) h)
  exact ⟨hplain, hchecked, hturns, hcheckedTurns⟩

/-- An error with a snippet, in a source with a tab, and a note about a file that is not known. -/
theorem render_colors_spec_with_note :
    let r : Reporter := ⟨[⟨"a.cc", ['\t', 'x', '\n']⟩]⟩
    let d : Diagnostic := ⟨"a.cc", 1, 1, "m", .error, 4003, [⟨"b.cc", 0, 1, "n", .message, 4007⟩]⟩
    let plain := "a.cc:1:2 - error E4003: m\n    1   \tx\n            ~\n  Related: b.cc - n"
    let colored := "a.cc:1:2 - \x1b[1;31merror\x1b[0m \x1b[94mE4003\x1b[0m: m\n    1   \tx\n" ++
      "        \x1b[31m    ~\x1b[0m\n\x1b[2m  Related\x1b[0m: b.cc - n"
    (∀ f ∈ r.sources, '\x1b' ∉ f.text) ∧ (∀ x ∈ [d], x.EscapeFree) ∧
      r.checkedRender? true [d] = some colored ∧ r.checkedRender? false [d] = some plain ∧
      withoutEscapes colored = plain ∧ TakeTurns (escapes colored) := by
  intro r d plain colored
  have hr : ∀ f ∈ r.sources, '\x1b' ∉ f.text := by decide
  have hds : ∀ x ∈ [d], x.EscapeFree := by decide
  have hcolored : r.checkedRender? true [d] = some colored := by decide +kernel
  have hplain : r.checkedRender? false [d] = some plain := by decide +kernel
  obtain ⟨-, hchecked, -, hturns⟩ := render_colors_spec hr hds
  rw [hcolored, hplain] at hchecked
  exact ⟨hr, hds, hcolored, hplain, Option.some.inj hchecked, hturns colored hcolored⟩

end Report.Reporter

end ConstructorCheck
