import ConstructorCheck.Text.Bytes
/-!
# Lines

Spans count bytes; people count lines and characters. A `LineMap` holds the offset at which each
line starts, and converts between the two.

A line ends with `\n`, with `\r\n`, or with a `\r` that no `\n` follows. Lines and characters are
counted from 0 here.

* `build` — the map of a text
* `lineAt` — the line of an offset, which is looked up among the line starts
* `positionAt` — the line and character of an offset; offsets past the end count as the end
* `offsetAt?` — the offset of a line and character; characters past the end of the line count as
  its end
-/

namespace ConstructorCheck.Text

/-- A line and a character of that line, both counted from 0. -/
structure Position where
  line : Nat
  character : Nat
deriving DecidableEq, Repr

/-- Where each line of a text starts, and how long the text is. -/
structure LineMap where
  /-- The offsets of the line starts, ascending; the first is 0. -/
  starts : List Nat
  /-- The length of the text in bytes. -/
  size : Nat
deriving DecidableEq, Repr

/-- The offsets right after each line terminator of `t`, where `t` begins at offset `offset`. -/
def startsAfter : Nat → List Char → List Nat
  | _, [] => []
  | offset, c :: r =>
    let next := offset + c.utf8Size
    if c = '\n' ∨ (c = '\r' ∧ r.head? ≠ some '\n') then next :: startsAfter next r
    else startsAfter next r

namespace LineMap

/-- The line map of a text. -/
def build (t : List Char) : LineMap := ⟨0 :: startsAfter 0 t, byteLength t⟩

/-- The number of lines; there is at least one. -/
def lineCount (m : LineMap) : Nat := m.starts.length

/-- The offset at which a line starts. -/
def lineStart? (m : LineMap) (line : Nat) : Option Nat := m.starts[line]?

/-- The index of a number in an ascending list, or where it would have to be inserted. -/
def search (l : List Nat) (n : Nat) : Except Nat Nat :=
  let i := (l.takeWhile (· < n)).length
  if l[i]? = some n then .ok i else .error i

/-- The line of an offset: the one that starts there, or else the last one that starts before. -/
def lineAt (m : LineMap) (offset : Nat) : Nat :=
  match search m.starts offset with
  | .ok exact => exact
  | .error insertion => insertion - 1

/-- Whether a character belongs to a line terminator. -/
def isTerminator (c : Char) : Bool := c = '\r' || c = '\n'

/-- A text without the terminator characters at its end. -/
def trimEnd (t : List Char) : List Char := (t.reverse.dropWhile isTerminator).reverse

/-- The offset at which the content of a line ends, its terminator left out. -/
def lineEnd? (m : LineMap) (line : Nat) (t : List Char) : Option Nat :=
  (m.lineStart? line).map fun start =>
    start + byteLength (trimEnd (slice start ((m.lineStart? (line + 1)).getD m.size) t))

/-- The line and character of an offset in `t`. -/
def positionAt (m : LineMap) (offset : Nat) (t : List Char) : Position :=
  let line := m.lineAt offset
  let stop := min offset (byteLength t)
  ⟨line, (slice (min ((m.lineStart? line).getD 0) stop) stop t).length⟩

/-- The offset of a line and character in `t`, or `none` when there is no such line. -/
def offsetAt? (m : LineMap) (p : Position) (t : List Char) : Option Nat := do
  let start ← m.lineStart? p.line
  let stop ← m.lineEnd? p.line t
  pure (start + byteLength ((slice start stop t).take p.character))

end LineMap

end ConstructorCheck.Text
