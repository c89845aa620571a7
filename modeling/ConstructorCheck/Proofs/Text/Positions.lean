import ConstructorCheck.Proofs.Text.Lines
/-!
# Positions and offsets

A position counts lines and characters, an offset counts bytes. Between two characters the way from
one to the other and back leads to the same place, unless the place is in or behind a terminator:
positions stop at the end of the content of their line.

* `FallsInto.offsetAt?_eq` — the offset of a position
* `FallsInto.exists_onLine` — what stands before an offset on its line
* `OnLine.positionAt_eq` — the position of an offset
* `LineMap.position_roundTrip` — there and back, from either side, and the order of positions

Both directions cut the text at the start of a line, but one cuts at the offset and the other at the
end of the content. What the two cuts leave are beginnings of the same line, so one of them begins
with the other.
-/

namespace ConstructorCheck.Text

open LineMap (build)

variable {t : List Char} {lines : List Line} {l : Line} {i n : Nat}

/-- The order in which positions are read. -/
def Position.Before (p q : Position) : Prop :=
  p.line < q.line ∨ p.line = q.line ∧ p.character < q.character

theorem length_le_byteLength (t : List Char) : t.length ≤ byteLength t := by
  induction t with
  | nil => exact Nat.le_refl _
  | cons c r ih =>
    have := c.utf8Size_pos
    rw [List.length_cons, byteLength_cons]
    omega

/-! ## From a position to an offset -/

/-- The content of a line stands between the start and the end of the line. -/
theorem FallsInto.slice?_content (h : FallsInto t lines) (hl : lines[i]? = some l) :
    slice? (byteLength (textBefore lines i))
      (byteLength (textBefore lines i ++ l.content)) t = some l.content := by
  have htext := h.eq_append hl
  rw [Line.text, ← List.append_assoc, List.append_assoc _ l.terminator] at htext
  rw [htext]
  exact slice?_append _ _ _

/-- **The offset of a position**, which is the end of the line for characters past its content. -/
theorem FallsInto.offsetAt?_eq (h : FallsInto t lines) (hl : lines[i]? = some l) (c : Nat) :
    (build t).offsetAt? ⟨i, c⟩ t =
      some (byteLength (textBefore lines i ++ l.content.take c)) := by
  refine Option.bind_eq_some_iff.2 ⟨_, h.lineStart?_eq_some hl,
    Option.bind_eq_some_iff.2 ⟨_, h.lineEnd?_eq hl, ?_⟩⟩
  rw [slice, h.slice?_content hl, Option.getD_some, byteLength_append]
  rfl

/-! ## From an offset to a position -/

/--
The offset `n` lies on line `i`, the line `l`, with the characters `x` before it; they may go on
into the terminator.
-/
structure OnLine (lines : List Line) (n i : Nat) (l : Line) (x : List Char) : Prop where
  line : lines[i]? = some l
  begins : x <+: l.text
  offset : n = byteLength (textBefore lines i ++ x)

/-- **An offset lies on its line.** -/
theorem FallsInto.exists_onLine (h : FallsInto t lines) (hn : isBoundary n t = true) :
    ∃ l x, OnLine lines n ((build t).lineAt n) l x := by
  obtain ⟨s, hs, hle, hlast⟩ := LineMap.exists_lineStart t n
  generalize (build t).lineAt n = i at hs
  have hget := h.lineStart?_eq i
  rw [hs] at hget
  obtain ⟨l, hl, rfl⟩ := Option.map_eq_some_iff.1 hget.symm
  -- the offset lies before the next line, or else before the end of the text
  have hstop : n ≤ byteLength (textBefore lines i ++ l.text) := by
    rw [← h.getD_lineStart? hl]
    cases hnext : (build t).lineStart? (i + 1) with
    | none => exact le_of_isBoundary hn
    | some next =>
      have hlt := LineMap.starts_sorted (Nat.lt_succ_self i) hs hnext
      by_contra hgt
      rw [Option.getD_some, Nat.not_le] at hgt
      have := hlast next (List.mem_of_getElem? hnext) (Nat.le_of_lt hgt)
      omega
  obtain ⟨a, b, hab, rfl⟩ := isBoundary_iff.1 hn
  have htext := h.eq_append hl
  obtain ⟨x, rfl⟩ : ∃ x, a = textBefore lines i ++ x :=
    exists_eq_append_of_le (by rw [← List.append_assoc, ← htext, hab]) hle
  obtain ⟨m, hm⟩ := exists_eq_append_of_le (hab.symm.trans htext) hstop
  rw [List.append_assoc] at hm
  exact ⟨l, x, hl, ⟨m, (List.append_cancel_left hm).symm⟩, rfl⟩

/-- **The position of an offset counts the characters that stand before it on its line.** -/
theorem OnLine.positionAt_eq {x : List Char} (hx : OnLine lines n ((build t).lineAt n) l x)
    (h : FallsInto t lines) : (build t).positionAt n t = ⟨(build t).lineAt n, x.length⟩ := by
  obtain ⟨y, hy⟩ := hx.begins
  have htext := h.eq_append hx.line
  rw [← hy, ← List.append_assoc, List.append_assoc _ y] at htext
  have hcharacter :=
    LineMap.character_positionAt htext hx.offset (h.lineStart?_eq_some hx.line)
  rw [← hcharacter]
  rfl

/-- Of two offsets on one line the greater one has more characters before it. -/
theorem OnLine.length_lt {m : Nat} {x y : List Char} (hx : OnLine lines m i l x)
    (hy : OnLine lines n i l y) (hlt : m < n) : x.length < y.length := by
  have hbytes : byteLength x < byteLength y := by
    rw [hx.offset, hy.offset, byteLength_append, byteLength_append] at hlt
    omega
  rcases List.prefix_or_prefix_of_prefix hx.begins hy.begins with ⟨q, rfl⟩ | hyx
  · cases q with
    | nil =>
      rw [List.append_nil] at hbytes
      exact absurd hbytes (Nat.lt_irrefl _)
    | cons c q =>
      rw [List.length_append, List.length_cons]
      omega
  · have := byteLength_le_of_prefix hyx
    omega

/-! ## There and back -/

namespace LineMap

/-- **From an offset to its position and back**: a place in or behind the terminator is lost. -/
theorem offsetAt?_positionAt (hn : isBoundary n t = true) :
    ∃ stop, (build t).lineEnd? ((build t).lineAt n) t = some stop ∧
      (build t).offsetAt? ((build t).positionAt n t) t = some (min n stop) := by
  obtain ⟨lines, h⟩ := exists_fallsInto t
  obtain ⟨l, x, hx⟩ := h.exists_onLine hn
  refine ⟨_, h.lineEnd?_eq hx.line, ?_⟩
  rw [hx.positionAt_eq h, h.offsetAt?_eq hx.line, Option.some.injEq]
  have hoffset := hx.offset
  rw [byteLength_append] at hoffset
  rw [byteLength_append, byteLength_append]
  rcases List.prefix_or_prefix_of_prefix hx.begins (List.prefix_append l.content l.terminator)
    with hxl | hlx
  · have hle := byteLength_le_of_prefix hxl
    rw [← List.prefix_iff_eq_take.1 hxl]
    omega
  · have hle := byteLength_le_of_prefix hlx
    rw [List.take_of_length_le hlx.length_le]
    omega

/-- **From a position to its offset and back**: the character stops at the end of the content. -/
theorem positionAt_offsetAt? (h : FallsInto t lines) (hl : lines[i]? = some l) (c : Nat) :
    ∃ offset, (build t).offsetAt? ⟨i, c⟩ t = some offset ∧
      (build t).positionAt offset t = ⟨i, min c l.content.length⟩ := by
  refine ⟨_, h.offsetAt?_eq hl c, ?_⟩
  have hline := lineAt_offsetAt? (h.offsetAt?_eq hl c)
  have hbegins : l.content.take c <+: l.text :=
    (List.take_prefix c _).trans (List.prefix_append _ _)
  rw [OnLine.positionAt_eq ⟨hline ▸ hl, hbegins, by rw [hline]⟩ h, hline, List.length_take]

/-- The positions of two places are in the order of their offsets. -/
theorem positionAt_before {m : Nat} (hm : isBoundary m t = true) (hn : isBoundary n t = true)
    (hlt : m < n) : ((build t).positionAt m t).Before ((build t).positionAt n t) := by
  obtain ⟨lines, h⟩ := exists_fallsInto t
  obtain ⟨k, x, hx⟩ := h.exists_onLine hm
  obtain ⟨l, y, hy⟩ := h.exists_onLine hn
  rw [hx.positionAt_eq h, hy.positionAt_eq h]
  rcases Nat.lt_or_eq_of_le (lineAt_mono t (Nat.le_of_lt hlt)) with hline | hline
  · exact Or.inl hline
  · have hkl := hx.line
    rw [hline] at hx hkl
    rw [hy.line, Option.some.injEq] at hkl
    subst hkl
    exact Or.inr ⟨hline, hx.length_lt hy hlt⟩

theorem positionAt_le (t : List Char) (n : Nat) :
    ((build t).positionAt n t).line < (build t).lineCount ∧
      ((build t).positionAt n t).character ≤ byteLength t := by
  constructor
  · obtain ⟨s, hs, -⟩ := exists_lineStart t n
    exact (List.getElem?_eq_some_iff.1 hs).1
  · refine Nat.le_trans (length_le_byteLength _) (Nat.le_trans (byteLength_slice_le _ _ t) ?_)
    exact Nat.le_trans (Nat.sub_le _ _) (Nat.min_le_right _ _)

/--
**Between positions and offsets, there and back.** A place between two characters is found again
from its position, up to the end of the content of its line. A character of an existing line is
found again from its offset, up to the number of characters of the content, and lines that do not
exist have no offsets. Places further on in the text have positions further on. All positions are on
lines of the text, and count no more characters than the text has bytes.
-/
theorem position_roundTrip (t : List Char) :
    (∀ n, isBoundary n t = true → ∃ stop,
      (build t).lineEnd? ((build t).positionAt n t).line t = some stop ∧
        (build t).offsetAt? ((build t).positionAt n t) t = some (min n stop)) ∧
    (∃ lines, FallsInto t lines ∧ lines.length = (build t).lineCount ∧
      ∀ i l, lines[i]? = some l → ∀ c, ∃ offset, (build t).offsetAt? ⟨i, c⟩ t = some offset ∧
        (build t).positionAt offset t = ⟨i, min c l.content.length⟩) ∧
    (∀ i c, (build t).lineCount ≤ i → (build t).offsetAt? ⟨i, c⟩ t = none) ∧
    (∀ m n, isBoundary m t = true → isBoundary n t = true → m < n →
      ((build t).positionAt m t).Before ((build t).positionAt n t)) ∧
    ∀ n, ((build t).positionAt n t).line < (build t).lineCount ∧
      ((build t).positionAt n t).character ≤ byteLength t := by
  obtain ⟨lines, h⟩ := exists_fallsInto t
  refine ⟨fun n => offsetAt?_positionAt, ⟨lines, h, h.lineCount_eq.symm, fun i l hl =>
    positionAt_offsetAt? h hl⟩, fun i c hi => ?_, fun m n => positionAt_before, positionAt_le t⟩
  have hstart : (build t).lineStart? i = none := List.getElem?_eq_none_iff.2 hi
  rw [offsetAt?, hstart]
  rfl

/-- Between the characters of a terminator a place is at the end of the content. -/
example : let t := ['é', '\r', '\n', 'b']
    (build t).positionAt 3 t = ⟨0, 2⟩ ∧ (build t).offsetAt? ⟨0, 2⟩ t = some 2 := by decide

end LineMap

end ConstructorCheck.Text
