/-!
# Byte offsets in a text

A text is a `List Char`; an offset into it counts the bytes of its UTF-8 form. An offset is a
*boundary* of a text when it lies between two characters (or at an end), and only there a text can
be cut.

* `byteLength` — the number of bytes of a text
* `splitBytes?` — the two parts of a text at an offset, if the offset is a boundary
* `slice?` — the part of a text between two offsets

All three recurse on the text.
-/

namespace ConstructorCheck.Text

/-- The number of bytes of a text in UTF-8. -/
def byteLength : List Char → Nat
  | [] => 0
  | c :: r => c.utf8Size + byteLength r

@[simp] theorem byteLength_nil : byteLength [] = 0 := rfl

@[simp] theorem byteLength_cons (c : Char) (r : List Char) :
    byteLength (c :: r) = c.utf8Size + byteLength r := rfl

@[simp] theorem byteLength_append (s t : List Char) :
    byteLength (s ++ t) = byteLength s + byteLength t := by
  induction s with
  | nil => simp
  | cons c r ih => simp [ih, Nat.add_assoc]

/--
The first `n` bytes of a text and the rest, or `none` when `n` lies inside a character or past the
end.
-/
def splitBytes? : Nat → List Char → Option (List Char × List Char)
  | 0, t => some ([], t)
  | _ + 1, [] => none
  | n + 1, c :: r =>
    if c.utf8Size ≤ n + 1 then
      (splitBytes? (n + 1 - c.utf8Size) r).map fun p => (c :: p.1, p.2)
    else none

/-- Cutting loses nothing, and the first part has the length asked for. -/
theorem splitBytes?_eq_some {n : Nat} {t a b : List Char} (h : splitBytes? n t = some (a, b)) :
    t = a ++ b ∧ byteLength a = n := by
  fun_induction splitBytes? n t generalizing a b with
  | case1 => simp_all
  | case2 => simp at h
  | case3 n c r hc ih =>
    obtain ⟨⟨a', b'⟩, hp, he⟩ := Option.map_eq_some_iff.1 h
    obtain ⟨rfl, hl⟩ := ih hp
    simp only [Prod.mk.injEq] at he
    obtain ⟨rfl, rfl⟩ := he
    simp only [List.cons_append, byteLength_cons, true_and]
    omega
  | case4 => simp at h

/-- A text can be cut wherever two parts meet. -/
theorem splitBytes?_append (a b : List Char) : splitBytes? (byteLength a) (a ++ b) = some (a, b) := by
  induction a with
  | nil => simp [splitBytes?]
  | cons c r ih =>
    have hc := c.utf8Size_pos
    obtain ⟨n, hn⟩ : ∃ n, byteLength (c :: r) = n + 1 :=
      ⟨byteLength (c :: r) - 1, by simp only [byteLength_cons]; omega⟩
    rw [hn, List.cons_append, splitBytes?]
    simp only [byteLength_cons] at hn
    have h1 : c.utf8Size ≤ n + 1 := by omega
    have h2 : n + 1 - c.utf8Size = byteLength r := by omega
    simp [h1, h2, ih]

/-- Whether `n` lies between two characters of the text or at one of its ends. -/
def isBoundary (n : Nat) (t : List Char) : Bool := (splitBytes? n t).isSome

/-- The text between two offsets, or `none` unless both are boundaries in this order. -/
def slice? (start stop : Nat) (t : List Char) : Option (List Char) :=
  if start ≤ stop then
    (splitBytes? start t).bind fun p => (splitBytes? (stop - start) p.2).map (·.1)
  else none

/-- The text between two offsets; empty when there is no such text. -/
def slice (start stop : Nat) (t : List Char) : List Char := (slice? start stop t).getD []

end ConstructorCheck.Text
