import ConstructorCheck.Text.Template
/-!
# The message catalogue

Every message has a number that stays the same between releases, a category, and a template whose
placeholders `{0}`, `{1}` are filled when the message is reported.

* `Message.all` — the catalogue, in the order of the numbers
* `Message.ofCode?` — the message of a number
* `Message.text` — the wording for given arguments
-/

namespace ConstructorCheck

/-- How serious a message is. -/
inductive Category where
  | warning
  | error
  | suggestion
  | message
deriving DecidableEq, Repr

/-- The messages of the checker. -/
inductive Message where
  | constructorIsPrivate
  | constructorIsProtected
  | noMatchingConstructor
  | ambiguousCall
  | noDefaultConstructor
  | declaredHere
  | candidateConstructor
deriving DecidableEq, Repr

namespace Message

/-- The catalogue, in the order of the numbers. -/
def all : List Message :=
  [constructorIsPrivate, constructorIsProtected, noMatchingConstructor, ambiguousCall,
    noDefaultConstructor, declaredHere, candidateConstructor]

/-- The number of a message. -/
def code : Message → Nat
  | constructorIsPrivate => 4001
  | constructorIsProtected => 4002
  | noMatchingConstructor => 4003
  | ambiguousCall => 4004
  | noDefaultConstructor => 4005
  | declaredHere => 4006
  | candidateConstructor => 4007

/-- Notes are plain messages; all others are errors. -/
def category : Message → Category
  | declaredHere | candidateConstructor => .message
  | _ => .error

/-- The wording, with placeholders. -/
def template : Message → String
  | constructorIsPrivate => "constructor '\x7b0\x7d' is private within this context"
  | constructorIsProtected => "constructor '\x7b0\x7d' is protected within this context"
  | noMatchingConstructor =>
    "no matching constructor for initialization of '\x7b0\x7d' with arguments (\x7b1\x7d)"
  | ambiguousCall => "call to constructor of '\x7b0\x7d' with arguments (\x7b1\x7d) is ambiguous"
  | noDefaultConstructor =>
    "no default constructor exists for '\x7b0\x7d', which is implicitly initialized here"
  | declaredHere => "'\x7b0\x7d' declared \x7b1\x7d here"
  | candidateConstructor => "candidate constructor '\x7b0\x7d'"

/-- The message with a given number. -/
def ofCode? (n : Nat) : Option Message := all.find? fun m => m.code == n

theorem mem_all (m : Message) : m ∈ all := by cases m <;> decide

theorem ofCode?_code (m : Message) : ofCode? m.code = some m := by cases m <;> rfl

/-- The wording of a message for the given arguments. -/
def text (m : Message) (args : List String) : String := Text.fill m.template args

end Message

end ConstructorCheck
