import ConstructorCheck.Json.Number
/-!
# JSON values

The fields of an object keep their order and may repeat. A string may be ill-formed: an escape can
name half of a surrogate pair. Such a string stands for no text and harms nobody who skips it.
-/

namespace ConstructorCheck.Json

/-- A JSON value. An ill-formed string is `none`. -/
inductive Value where
  | null
  | bool (b : Bool)
  | number (n : Number)
  | string (s : Option String)
  | array (items : List Value)
  | object (fields : List (Option String × Value))

/--
Whether a value can be taken in without knowing what it is for: its strings are well-formed, its
numbers fit a double, and at most `depth` containers lie inside one another.
-/
def Value.bufferable : Nat → Value → Bool
  | _, .null | _, .bool _ => true
  | _, .number n => !n.overflowsDouble
  | _, .string s => s.isSome
  | 0, .array _ | 0, .object _ => false
  | depth + 1, .array items => items.all (bufferable depth)
  | depth + 1, .object fields => fields.all fun f => f.1.isSome && f.2.bufferable depth

end ConstructorCheck.Json
