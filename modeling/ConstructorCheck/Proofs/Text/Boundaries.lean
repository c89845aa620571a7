import ConstructorCheck.Proofs.Text.LineMap
/-!
# Boundaries

Where a text can be cut: an offset is a boundary when it is the length of a part in front.

* `isBoundary_iff` — boundaries as places where two parts meet
* `slice?_append` — the text between two boundaries
* `isBoundary_lineStart?`, `isBoundary_offsetAt?` — the offsets of a line map are boundaries

Lines are counted in characters and end at a terminator, so no offset that is found through a line
map lies inside a character.
-/

namespace ConstructorCheck.Text

variable {t : List Char} {n : Nat}

theorem isBoundary_iff : isBoundary n t = true ↔ ∃ a b, t = a ++ b ∧ byteLength a = n := by
  rw [isBoundary, Option.isSome_iff_exists]
  constructor
  · rintro ⟨⟨a, b⟩, hsplit⟩
    exact ⟨a, b, splitBytes?_eq_some hsplit⟩
  · rintro ⟨a, b, rfl, rfl⟩
    exact ⟨(a, b), splitBytes?_append a b⟩

theorem isBoundary_append (a b : List Char) : isBoundary (byteLength a) (a ++ b) = true :=
  isBoundary_iff.2 ⟨a, b, rfl, rfl⟩

theorem isBoundary_zero (t : List Char) : isBoundary 0 t = true := isBoundary_append [] t

theorem le_of_isBoundary (hn : isBoundary n t = true) : n ≤ byteLength t := by
  obtain ⟨a, b, rfl, rfl⟩ := isBoundary_iff.1 hn
  rw [byteLength_append]
  omega

/-- The text between two places where parts meet. -/
theorem slice?_append (a l b : List Char) :
    slice? (byteLength a) (byteLength (a ++ l)) (a ++ l ++ b) = some l := by
  have hle : byteLength a ≤ byteLength (a ++ l) := by
    rw [byteLength_append]
    omega
  rw [slice?, if_pos hle, List.append_assoc, splitBytes?_append, Option.bind_some]
  rw [byteLength_append, Nat.add_sub_cancel_left, splitBytes?_append, Option.map_some]

theorem slice_append (a l b : List Char) :
    slice (byteLength a) (byteLength (a ++ l)) (a ++ l ++ b) = l := by
  rw [slice, slice?_append, Option.getD_some]

theorem byteLength_le_of_prefix {a b : List Char} (h : a <+: b) : byteLength a ≤ byteLength b := by
  obtain ⟨q, rfl⟩ := h
  rw [byteLength_append]
  exact Nat.le_add_right _ _

/-! ## The offsets of a line map -/

namespace LineMap

theorem isBoundary_of_mem_startsAfter (hn : n ∈ startsAfter 0 t) : isBoundary n t = true := by
  obtain ⟨a, c, b, rfl, -, rfl⟩ := terminator_of_mem_startsAfter hn
  rw [Nat.zero_add]
  exact isBoundary_iff.2 ⟨a ++ [c], b, by rw [List.append_assoc]; rfl, rfl⟩

theorem isBoundary_lineStart? {line : Nat} (hn : (build t).lineStart? line = some n) :
    isBoundary n t = true := by
  rcases List.mem_cons.1 (List.mem_of_getElem? hn) with rfl | hn
  · exact isBoundary_zero t
  · exact isBoundary_of_mem_startsAfter hn

/-- The character of a position counts what stands between the start of the line and the offset. -/
theorem character_positionAt {a l b : List Char} (ht : t = a ++ l ++ b)
    (hn : n = byteLength (a ++ l))
    (hstart : (build t).lineStart? ((build t).lineAt n) = some (byteLength a)) :
    ((build t).positionAt n t).character = l.length := by
  have hle : byteLength a ≤ n := hn ▸ byteLength_le_of_prefix (List.prefix_append a l)
  have hstop : n ≤ byteLength t := by
    rw [hn, ht]
    exact byteLength_le_of_prefix (List.prefix_append (a ++ l) b)
  have hslice : slice (byteLength a) n t = l := by rw [hn, ht, slice_append]
  simp only [positionAt, hstart, Option.getD_some, Nat.min_eq_left hstop, Nat.min_eq_left hle,
    hslice]

/-- **The offset of a line and character is a boundary.** -/
theorem isBoundary_offsetAt? {p : Position} (hn : (build t).offsetAt? p t = some n) :
    isBoundary n t = true := by
  obtain ⟨start, hstart, hn⟩ := Option.bind_eq_some_iff.1 hn
  obtain ⟨stop, -, hn⟩ := Option.bind_eq_some_iff.1 hn
  cases hn
  unfold slice
  cases hslice : slice? start stop t with
  | none =>
    rw [Option.getD_none, List.take_nil]
    exact isBoundary_lineStart? hstart
  | some l =>
    obtain ⟨a, b, rfl, rfl, -⟩ := slice?_eq_some hslice
    rw [Option.getD_some, ← byteLength_append]
    refine isBoundary_iff.2 ⟨a ++ l.take p.character, l.drop p.character ++ b, ?_, rfl⟩
    rw [List.append_assoc a (l.take _), ← List.append_assoc (l.take _), List.take_append_drop,
      List.append_assoc]

end LineMap

end ConstructorCheck.Text
