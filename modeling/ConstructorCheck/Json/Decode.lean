import ConstructorCheck.Json.Value
/-!
# Decoding records

A record is written as an object, each field at most once, or as the array of its fields in their
order. `Record` holds the fields of either form, and the three ways of taking a field out of it say
what happens when the field is not there.

A decoder returns `none` for a value of the wrong shape.
-/

namespace ConstructorCheck.Json

/-- A decoder of values. -/
abbrev Decoder (α : Type) := Value → Option α

namespace Value

/-- A well-formed string. -/
def string? : Decoder String
  | .string s => s
  | _ => none

/-- A truth value. -/
def bool? : Decoder Bool
  | .bool b => some b
  | _ => none

/-- A plain run of digits with a value up to `greatest`. -/
def nat? (greatest : Nat) : Decoder Nat
  | .number n => n.toNat?.bind fun k => if k ≤ greatest then some k else none
  | _ => none

/-- An array whose items are all of one kind. -/
def list? {α : Type} (item : Decoder α) : Decoder (List α)
  | .array items => items.mapM item
  | _ => none

/-- Null, or a value of some kind. -/
def nullable? {α : Type} (content : Decoder α) : Decoder (Option α)
  | .null => some none
  | v => (content v).map some

/-- A name out of a fixed choice; it may also be the only key of an object, with null. -/
def choice? {α : Type} (ofName? : String → Option α) : Decoder α
  | .string (some s) => ofName? s
  | .object [(some s, .null)] => ofName? s
  | _ => none

end Value

/-- The fields of a record in their order. -/
structure Record where
  /-- Whether the record was written as an object. -/
  named : Bool
  /-- The value of each field that is there. -/
  values : List (Option Value)

/-- Whether keys may occur in an object: known ones once, others only if they are ignored. -/
def keysFit (known : List String) (ignoreOthers : Bool) (keys : List String) : Bool :=
  (ignoreOthers || keys.all known.contains) && known.all fun k => keys.count k ≤ 1

/-- The record with the given fields that a value holds. -/
def record? (known : List String) (ignoreOthers : Bool) : Decoder Record
  | .object fields => do
    let keys ← fields.mapM (·.1)
    if keysFit known ignoreOthers keys then
      let entries := keys.zip (fields.map (·.2))
      pure ⟨true, known.map fun k => entries.lookup k⟩
    else none
  | .array items =>
    if items.length ≤ known.length then
      some ⟨false, items.map some ++ List.replicate (known.length - items.length) none⟩
    else none
  | _ => none

namespace Record

variable (r : Record)

/-- The value of a field, by its place. -/
def value? (field : Nat) : Option Value := (r.values[field]?).join

/-- A field that has to be there. -/
def required {α : Type} (field : Nat) (decode : Decoder α) : Option α := (r.value? field).bind decode

/-- A field with a value of its own when it is not there. -/
def defaulted {α : Type} (field : Nat) (decode : Decoder α) (default : α) : Option α :=
  match r.value? field with
  | some v => decode v
  | none => some default

/-- A field that may be null. An object may leave it out, an array may not. -/
def optional {α : Type} (field : Nat) (decode : Decoder α) : Option (Option α) :=
  match r.value? field with
  | some v => v.nullable? decode
  | none => if r.named then some none else none

end Record

end ConstructorCheck.Json
