/-!
# Spans

A span is a half-open range of byte offsets in one file. Spans come from outside, so `stop` may lie
before `start`; such a span is empty.

Offsets are natural numbers. `maxOffset` is the largest one a span may carry, and whoever computes
an offset by addition compares with it. It is also the largest number of 32 bits: `checkedAdd?` and
`checkedSub?` are the steps of those who compute with such numbers.
-/

namespace ConstructorCheck

/-- The largest byte offset that a span can hold. -/
def maxOffset : Nat := 4294967295

/-- A sum of offsets, if it is an offset. -/
def checkedAdd? (m n : Nat) : Option Nat := if m + n ≤ maxOffset then some (m + n) else none

/-- A difference of offsets, if it is an offset. -/
def checkedSub? (m n : Nat) : Option Nat := if n ≤ m then some (m - n) else none

/-- The bytes from `start` up to, not including, `stop` of file number `file`. -/
structure Span where
  file : Nat
  start : Nat
  stop : Nat
deriving DecidableEq, Repr

namespace Span

/-- The span of something whose place is not known. -/
def unknown : Span := ⟨0, 0, 0⟩

instance : Inhabited Span := ⟨unknown⟩

/-- The number of bytes covered; a span that ends before it starts covers none. -/
def length (s : Span) : Nat := s.stop - s.start

/-- Whether the span covers no byte. -/
def isEmpty (s : Span) : Bool := s.stop ≤ s.start

/-- Spans are ordered by file, then by start, then by stop. -/
instance : Ord Span where
  compare := compareLex (compareOn file) (compareLex (compareOn start) (compareOn stop))

/-- Spans in their order. -/
def sort (ss : List Span) : List Span := ss.mergeSort fun a b => (compare a b).isLE

end Span

end ConstructorCheck
