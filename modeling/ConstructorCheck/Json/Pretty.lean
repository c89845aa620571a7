/-!
# Pretty-printed JSON

A value is printed as a block of lines: every item of an array and every field of an object begins
a line of its own, two blanks further in than the bracket before it. Empty containers take no
lines of their own.
-/

namespace ConstructorCheck.Json

/-- The lines of a printed value. -/
abbrev Block := List String

namespace Block

/-- One hexadecimal digit. -/
def hexDigit (n : Nat) : Char := if n < 10 then Char.ofNat (48 + n) else Char.ofNat (87 + n)

/-- A character inside a string. -/
def escape (c : Char) : List Char :=
  match c with
  | '"' => ['\\', '"']
  | '\\' => ['\\', '\\']
  | '\x08' => ['\\', 'b']
  | '\x0c' => ['\\', 'f']
  | '\n' => ['\\', 'n']
  | '\r' => ['\\', 'r']
  | '\t' => ['\\', 't']
  | c =>
    if c.toNat < 0x20 then ['\\', 'u', '0', '0', hexDigit (c.toNat / 16), hexDigit (c.toNat % 16)]
    else [c]

/-- A string in quotes. -/
def quoted (s : String) : String := "\"" ++ String.ofList (s.toList.flatMap escape) ++ "\""

/-- A string. -/
def string (s : String) : Block := [quoted s]

/-- A natural number. -/
def nat (n : Nat) : Block := [n.repr]

/-- The lines of a block that ends with a comma. -/
def withComma : Block → Block
  | [] => []
  | [l] => [l ++ ","]
  | l :: ls => l :: withComma ls

/-- The lines of some blocks with commas between them. -/
def separated : List Block → Block
  | [] => []
  | [b] => b
  | b :: bs => withComma b ++ separated bs

/-- Some blocks between brackets. -/
def enclosed (left right : String) (bs : List Block) : Block :=
  if bs.isEmpty then [left ++ right]
  else left :: (separated bs).map ("  " ++ ·) ++ [right]

/-- An array. -/
def array (bs : List Block) : Block := enclosed "[" "]" bs

/-- A field of an object: its key stands on the first line of its value. -/
def field (key : String) : Block → Block
  | [] => []
  | l :: ls => (quoted key ++ ": " ++ l) :: ls

/-- An object. -/
def object (fields : List (String × Block)) : Block :=
  enclosed "\x7b" "\x7d" (fields.map fun f => field f.1 f.2)

/-- The text of a block. -/
def text (b : Block) : String := "\n".intercalate b

end Block

end ConstructorCheck.Json
