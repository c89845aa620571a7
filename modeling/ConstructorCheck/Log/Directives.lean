import ConstructorCheck.Text.Blank
/-!
# Log directives

What is logged is chosen by a list of directives, separated by commas. A few words stand for
directives that concern the checker only: a bare level, `sites`, `overload` and `hierarchy`. All
other directives are kept as they are, without blanks around them; empty ones are dropped.
-/

namespace ConstructorCheck.Log

/-- The levels that a directive may name. -/
def levels : List String := ["error", "warn", "info", "debug", "trace"]

/-- The parts of the checker that write to the log. -/
def targets : List String := ["ctorck_hierarchy", "ctorck_checker", "ctorck_conformance"]

/-- The directives that a word stands for, if it stands for any. -/
def shorthand? (word : String) : Option (List String) :=
  if levels.contains word then some (targets.map fun t => t ++ "=" ++ word)
  else if word = "sites" then
    some ["ctorck_checker::checker=debug", "ctorck_checker::access=trace"]
  else if word = "overload" then
    some ["ctorck_checker::gather=trace", "ctorck_checker::overload=trace"]
  else if word = "hierarchy" then some ["ctorck_hierarchy=debug"]
  else none

/-- The directives of a list, trimmed, without the empty ones. -/
def directives (value : String) : List String :=
  (((value.toList.splitOn ',').map Text.trim).filter fun d => !d.isEmpty).map String.ofList

/-- The directives with the words for several of them written out. -/
def expand (value : String) : String :=
  ",".intercalate ((directives value).flatMap fun d => (shorthand? d).getD [d])

/-- The forms in which a log can be written. -/
inductive Format where
  | text
  | tree
  | json
deriving DecidableEq, Repr

/-- A letter of the alphabet in lower case. -/
def lowerAscii (c : Char) : Char :=
  if 'A' ≤ c && c ≤ 'Z' then Char.ofNat (c.toNat + 32) else c

/-- The form with a name; blanks and case do not matter, and an unknown name means text. -/
def Format.ofName (name : String) : Format :=
  match String.ofList ((Text.trim name.toList).map lowerAscii) with
  | "tree" => .tree
  | "json" => .json
  | _ => .text

/-- What is logged, and how. -/
structure Config where
  directives : String
  format : Format
deriving DecidableEq, Repr

/--
The configuration that three settings ask for: our own directives, which win, directives in general,
which are taken as they are, and the form. Without directives nothing is logged.
-/
def Config.ofSettings? (own general format : Option String) : Option Config :=
  let format := Format.ofName (format.getD "")
  match own, general with
  | some value, _ => some ⟨expand value, format⟩
  | none, some value => some ⟨value, format⟩
  | none, none => none

end ConstructorCheck.Log
