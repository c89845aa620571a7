import ConstructorCheck.Json.Lexer
/-!
# Reading JSON

The tokens of a text are put together to one value. The containers that are open at a token are
kept in a list of frames, so reading recurses on the tokens alone, however deep a text nests.
-/

namespace ConstructorCheck.Json

/-- The fields of an object read so far, last first. -/
abbrev Fields := List (Option String × Value)

/-- A container that is open while one of its values is read. -/
inductive Frame where
  /-- An array with the items before, last first. -/
  | items (before : List Value)
  /-- An object with the fields before and the key of the current one. -/
  | field (before : Fields) (key : Option String)

/-- What may come next. -/
inductive Expect where
  | value
  /-- A value or, right after the bracket, the end of an array. -/
  | valueOrEnd
  /-- A key or, right after the brace, the end of an object. -/
  | keyOrEnd
  | key (before : Fields)
  | colon (before : Fields) (key : Option String)
  /-- Whatever may follow this value. -/
  | after (v : Value)

/-- The value that some tokens complete, given what is open and what may come next. -/
def assembleValue : Expect → List Frame → List Token → Option Value
  | .after v, [], [] => some v
  | .after v, .items before :: st, .comma :: ts =>
    assembleValue .value (.items (v :: before) :: st) ts
  | .after v, .items before :: st, .closeArray :: ts =>
    assembleValue (.after (.array (v :: before).reverse)) st ts
  | .after v, .field before key :: st, .comma :: ts =>
    assembleValue (.key ((key, v) :: before)) st ts
  | .after v, .field before key :: st, .closeObject :: ts =>
    assembleValue (.after (.object ((key, v) :: before).reverse)) st ts
  | .valueOrEnd, .items _ :: st, .closeArray :: ts => assembleValue (.after (.array [])) st ts
  | .value, st, .openArray :: ts | .valueOrEnd, st, .openArray :: ts =>
    assembleValue .valueOrEnd (.items [] :: st) ts
  | .value, st, .openObject :: ts | .valueOrEnd, st, .openObject :: ts =>
    assembleValue .keyOrEnd st ts
  | .value, st, .scalar v :: ts | .valueOrEnd, st, .scalar v :: ts => assembleValue (.after v) st ts
  | .value, st, .string s :: ts | .valueOrEnd, st, .string s :: ts =>
    assembleValue (.after (.string s)) st ts
  | .keyOrEnd, st, .closeObject :: ts => assembleValue (.after (.object [])) st ts
  | .keyOrEnd, st, .string s :: ts => assembleValue (.colon [] s) st ts
  | .key before, st, .string s :: ts => assembleValue (.colon before s) st ts
  | .colon before key, st, .colon :: ts => assembleValue .value (.field before key :: st) ts
  | _, _, _ => none

/-- The value of a JSON text, or `none` when the text is not JSON. -/
def read (text : List Char) : Option Value := (lex text).bind (assembleValue .value [])

end ConstructorCheck.Json
