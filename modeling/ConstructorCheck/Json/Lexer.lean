import ConstructorCheck.Json.Value
/-!
# The tokens of a JSON text

`lex` cuts a text into tokens. It is strict: no comments, no leading zeros, no control characters
inside strings.

Every token takes at least one character off the text (`nextToken_shorter`), which is why `lex`
ends.
-/

namespace ConstructorCheck.Json

/-- A lexical unit of a JSON text. -/
inductive Token where
  | openArray
  | closeArray
  | openObject
  | closeObject
  | comma
  | colon
  | scalar (v : Value)
  | string (s : Option String)

/-! ## Strings -/

/-- What one step through a string yields: a character, or a UTF-16 unit named by an escape. -/
inductive Piece where
  | char (c : Char)
  | unit16 (n : Nat)

/-- The value of a hexadecimal digit. -/
def hexValue (c : Char) : Option Nat :=
  if '0' ≤ c && c ≤ '9' then some (c.toNat - '0'.toNat)
  else if 'a' ≤ c && c ≤ 'f' then some (c.toNat - 'a'.toNat + 10)
  else if 'A' ≤ c && c ≤ 'F' then some (c.toNat - 'A'.toNat + 10)
  else none

/-- The value of four hexadecimal digits. -/
def hexValue4 (a b c d : Char) : Option Nat := do
  let w ← hexValue a
  let x ← hexValue b
  let y ← hexValue c
  let z ← hexValue d
  pure (((w * 16 + x) * 16 + y) * 16 + z)

/-- The character of a short escape. -/
def shortEscape (c : Char) : Option Char :=
  match c with
  | '"' => some '"'
  | '\\' => some '\\'
  | '/' => some '/'
  | 'b' => some '\x08'
  | 'f' => some '\x0c'
  | 'n' => some '\n'
  | 'r' => some '\r'
  | 't' => some '\t'
  | _ => none

/-- The text of the pieces; `none` when a surrogate lacks its partner. -/
def assemble : List Piece → Option (List Char)
  | [] => some []
  | .char c :: r => (assemble r).map (c :: ·)
  | .unit16 n :: r =>
    if 0xD800 ≤ n && n < 0xDC00 then
      match r with
      | .unit16 m :: r' =>
        if 0xDC00 ≤ m && m < 0xE000 then
          (assemble r').map (Char.ofNat (0x10000 + (n - 0xD800) * 0x400 + (m - 0xDC00)) :: ·)
        else none
      | _ => none
    else if 0xDC00 ≤ n && n < 0xE000 then none
    else (assemble r).map (Char.ofNat n :: ·)

/-- The pieces of a string up to its closing quote, and the text after it. -/
def stringPieces (acc : List Piece) : List Char → Option (List Piece × List Char)
  | [] => none
  | '"' :: r => some (acc.reverse, r)
  | '\\' :: 'u' :: a :: b :: c :: d :: r =>
    match hexValue4 a b c d with
    | some n => stringPieces (.unit16 n :: acc) r
    | none => none
  | '\\' :: e :: r =>
    match shortEscape e with
    | some c => stringPieces (.char c :: acc) r
    | none => none
  | c :: r => if c.toNat < 0x20 || c = '\\' then none else stringPieces (.char c :: acc) r

theorem stringPieces_shorter {acc ps : List Piece} {t r : List Char}
    (h : stringPieces acc t = some (ps, r)) : r.length < t.length := by
  fun_induction stringPieces acc t with
  | case1 => simp at h
  | case2 => simp_all
  | case3 _ _ _ _ _ _ _ _ ih => have := ih h; simp only [List.length_cons]; omega
  | case4 => simp at h
  | case5 _ _ _ _ _ _ ih => have := ih h; simp only [List.length_cons]; omega
  | case6 => simp at h
  | case7 => simp at h
  | case8 _ _ _ _ _ _ _ ih => have := ih h; simp only [List.length_cons]; omega

/-! ## Numbers -/

/-- The leading digits of a text and the text after them. -/
def digits (t : List Char) : List Nat × List Char :=
  ((t.takeWhile Char.isDigit).map fun c => c.toNat - '0'.toNat, t.dropWhile Char.isDigit)

theorem digits_not_longer (t : List Char) : (digits t).2.length ≤ t.length :=
  (List.dropWhile_sublist _).length_le

/-- The integer part of a number; a zero stands alone. -/
def integerPart : List Char → Option (List Nat × List Char)
  | [] => none
  | c :: r =>
    if c = '0' then some ([0], r)
    else if c.isDigit then
      let (ds, r') := digits r
      some ((c.toNat - '0'.toNat) :: ds, r')
    else none

/-- The digits after a point, if there is a point. -/
def fractionPart : List Char → Option (List Nat × List Char)
  | '.' :: r =>
    let (ds, r') := digits r
    if ds.isEmpty then none else some (ds, r')
  | t => some ([], t)

/-- The sign of an exponent, true for a minus, and the text after it. -/
def exponentSign : List Char → Bool × List Char
  | '-' :: r => (true, r)
  | '+' :: r => (false, r)
  | t => (false, t)

/-- The exponent, if there is one. -/
def exponentPart : List Char → Option (Option (Bool × List Nat) × List Char)
  | [] => some (none, [])
  | c :: r =>
    if c = 'e' || c = 'E' then
      let (negative, r₁) := exponentSign r
      let (ds, r₂) := digits r₁
      if ds.isEmpty then none else some (some (negative, ds), r₂)
    else some (none, c :: r)

/-- A number without its sign, and the text after it. -/
def unsignedNumber (negative : Bool) (t : List Char) : Option (Number × List Char) := do
  let (int, t₁) ← integerPart t
  let (frac, t₂) ← fractionPart t₁
  let (exp, t₃) ← exponentPart t₂
  pure (⟨negative, int, frac, exp⟩, t₃)

theorem integerPart_shorter {t r : List Char} {ds : List Nat}
    (h : integerPart t = some (ds, r)) : r.length < t.length := by
  unfold integerPart at h
  split at h
  · simp at h
  · split at h
    · simp_all
    · split at h
      · simp only [Option.some.injEq, Prod.mk.injEq] at h
        rename_i c r' _ _
        have := digits_not_longer r'
        simp only [List.length_cons, ← h.2]
        omega
      · simp at h

theorem fractionPart_not_longer {t r : List Char} {ds : List Nat}
    (h : fractionPart t = some (ds, r)) : r.length ≤ t.length := by
  unfold fractionPart at h
  split at h
  · simp only [] at h
    split at h
    · simp at h
    · simp only [Option.some.injEq, Prod.mk.injEq] at h
      rename_i r' _
      have := digits_not_longer r'
      simp only [List.length_cons, ← h.2]
      omega
  · simp_all

theorem exponentSign_not_longer (t : List Char) : (exponentSign t).2.length ≤ t.length := by
  unfold exponentSign
  split <;> simp

theorem exponentPart_not_longer {t r : List Char} {e : Option (Bool × List Nat)}
    (h : exponentPart t = some (e, r)) : r.length ≤ t.length := by
  unfold exponentPart at h
  split at h
  · simp_all
  · simp only [] at h
    split at h
    · split at h
      · simp at h
      · simp only [Option.some.injEq, Prod.mk.injEq] at h
        rename_i c r' _ _
        have h₁ := exponentSign_not_longer r'
        have h₂ := digits_not_longer (exponentSign r').2
        simp only [List.length_cons, ← h.2]
        omega
    · simp only [Option.some.injEq, Prod.mk.injEq] at h
      simp [← h.2]

theorem unsignedNumber_shorter {negative : Bool} {t r : List Char} {n : Number}
    (h : unsignedNumber negative t = some (n, r)) : r.length < t.length := by
  simp only [unsignedNumber, Option.bind_eq_bind, Option.bind_eq_some_iff, Option.pure_def,
    Option.some.injEq, Prod.mk.injEq] at h
  obtain ⟨⟨int, t₁⟩, h₁, ⟨frac, t₂⟩, h₂, ⟨exp, t₃⟩, h₃, -, rfl⟩ := h
  have := integerPart_shorter h₁
  have := fractionPart_not_longer h₂
  have := exponentPart_not_longer h₃
  dsimp only at *
  omega

/-! ## Tokens -/

/-- The blanks of JSON. -/
def isBlank (c : Char) : Bool := c = ' ' || c = '\t' || c = '\n' || c = '\r'

/-- The token at the start of a text, `some none` for a blank, and the text after it. -/
def nextToken : List Char → Option (Option Token × List Char)
  | [] => none
  | '[' :: r => some (some .openArray, r)
  | ']' :: r => some (some .closeArray, r)
  | '\x7b' :: r => some (some .openObject, r)
  | '\x7d' :: r => some (some .closeObject, r)
  | ',' :: r => some (some .comma, r)
  | ':' :: r => some (some .colon, r)
  | '"' :: r =>
    (stringPieces [] r).map fun p => (some (.string ((assemble p.1).map String.ofList)), p.2)
  | 't' :: 'r' :: 'u' :: 'e' :: r => some (some (.scalar (.bool true)), r)
  | 'f' :: 'a' :: 'l' :: 's' :: 'e' :: r => some (some (.scalar (.bool false)), r)
  | 'n' :: 'u' :: 'l' :: 'l' :: r => some (some (.scalar .null), r)
  | '-' :: r => (unsignedNumber true r).map fun p => (some (.scalar (.number p.1)), p.2)
  | c :: r =>
    if isBlank c then some (none, r)
    else (unsignedNumber false (c :: r)).map fun p => (some (.scalar (.number p.1)), p.2)

theorem nextToken_shorter {t r : List Char} {tok : Option Token}
    (h : nextToken t = some (tok, r)) : r.length < t.length := by
  unfold nextToken at h
  split at h
  all_goals first
    | (simp at h; done)
    | (simp only [Option.some.injEq, Prod.mk.injEq] at h; simp only [List.length_cons, h.2]; omega)
    | skip
  · obtain ⟨⟨ps, r'⟩, hp, he⟩ := Option.map_eq_some_iff.1 h
    have := stringPieces_shorter hp
    simp only [Prod.mk.injEq] at he
    simp only [List.length_cons, ← he.2]
    omega
  · obtain ⟨⟨n, r'⟩, hp, he⟩ := Option.map_eq_some_iff.1 h
    have := unsignedNumber_shorter hp
    simp only [Prod.mk.injEq] at he
    simp only [List.length_cons, ← he.2]
    omega
  · split at h
    · simp only [Option.some.injEq, Prod.mk.injEq] at h
      simp [h.2]
    · obtain ⟨⟨n, r'⟩, hp, he⟩ := Option.map_eq_some_iff.1 h
      have := unsignedNumber_shorter hp
      simp only [Prod.mk.injEq] at he
      simpa [← he.2] using this

/-- The tokens of a text after those in `acc`, or `none` when something is no token. -/
def lexOnto (acc : List Token) (t : List Char) : Option (List Token) :=
  match t with
  | [] => some acc.reverse
  | c :: r =>
    match _h : nextToken (c :: r) with
    | none => none
    | some (none, rest) => lexOnto acc rest
    | some (some tok, rest) => lexOnto (tok :: acc) rest
termination_by t.length
decreasing_by all_goals exact nextToken_shorter (by assumption)

/-- The tokens of a text. -/
def lex (t : List Char) : Option (List Token) := lexOnto [] t

end ConstructorCheck.Json
