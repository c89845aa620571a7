/-!
# JSON numbers

A number is kept as its literal, since readers differ in what they make of it: a count has to be a
plain run of digits, and a value that is read without looking at it has to fit a double.
-/

namespace ConstructorCheck.Json

/-- A number literal. Digits are given by their values. -/
structure Number where
  negative : Bool
  integer : List Nat
  /-- The digits after the point; empty when there is no point. -/
  fraction : List Nat
  /-- Whether the exponent is negative, and its digits. -/
  exponent? : Option (Bool × List Nat)
deriving DecidableEq, Repr

/-- The value of a run of decimal digits. -/
def digitsValue (ds : List Nat) : Nat := ds.foldl (fun n d => 10 * n + d) 0

/-- `n` rounded to 53 binary digits, a half going to the even neighbour. -/
def round53 (n : Nat) : Nat :=
  if n < Nat.pow 2 53 then n
  else
    let unit := Nat.pow 2 (n.log2 - 52)
    let q := n / unit
    let r := n % unit
    let up := unit < 2 * r || (2 * r = unit && q % 2 = 1)
    (if up then q + 1 else q) * unit

/-- The decimal significand that fits 64 bits, the digits left over, and its value. -/
def takeDigits (sig : Nat) : List Nat → Nat × List Nat
  | [] => (sig, [])
  | d :: ds => if 10 * sig + d < Nat.pow 2 64 then takeDigits (10 * sig + d) ds else (sig, d :: ds)

namespace Number

/-- The value of a literal that is only a run of digits. -/
def toNat? (n : Number) : Option Nat :=
  if n.negative || !n.fraction.isEmpty || n.exponent?.isSome then none
  else some (digitsValue n.integer)

/-- The significand of a literal in at most 64 bits, and its power of ten. -/
def scaled (n : Number) : Nat × Int :=
  let (sig, dropped) := takeDigits 0 n.integer
  let (sig', left) := takeDigits sig n.fraction
  (sig', (dropped.length : Int) - ((n.fraction.length - left.length : Nat) : Int))

/-- The written exponent. -/
def exponent (n : Number) : Int :=
  match n.exponent? with
  | none => 0
  | some (negative, ds) => if negative then -(digitsValue ds : Int) else digitsValue ds

/--
Whether the literal lies beyond the doubles. Its significand and the power of ten are rounded to
doubles one by one, so the product is compared with the greatest double and half a unit.
-/
def overflowsDouble (n : Number) : Bool :=
  let (sig, scale) := n.scaled
  let e := scale + n.exponent
  if sig = 0 || e < 0 then false
  else 308 < e || Nat.pow 2 1024 - Nat.pow 2 970 ≤ round53 sig * round53 (Nat.pow 10 e.toNat)

end Number

end ConstructorCheck.Json
