/-!
# Message templates

A template is a text with placeholders `{0}`, `{1}`, … . `fill` replaces them by arguments, one
argument after the other over the whole text, so a placeholder that comes in with an argument is
replaced in its turn when its number is still ahead.

`replaceAll` ends because every step consumes a character of the text.
-/

namespace ConstructorCheck.Text

/-- Replaces every occurrence of `pattern`, from left to right and without overlaps. -/
def replaceAll (pattern new : List Char) : List Char → List Char
  | [] => []
  | c :: r =>
    if pattern.isPrefixOf (c :: r) then new ++ replaceAll pattern new (r.drop (pattern.length - 1))
    else c :: replaceAll pattern new r
termination_by t => t.length
decreasing_by
  · simp only [List.length_drop, List.length_cons]; omega
  · simp

/-- The placeholder of argument number `i`. -/
def placeholder (i : Nat) : List Char := '\x7b' :: (Nat.repr i).toList ++ ['\x7d']

/-- Replaces the placeholders numbered from `i` on by the arguments, in order. -/
def fillFrom (i : Nat) (t : List Char) : List (List Char) → List Char
  | [] => t
  | a :: as => fillFrom (i + 1) (replaceAll (placeholder i) a t) as

/-- The template with its placeholders replaced by the arguments. -/
def fill (template : String) (args : List String) : String :=
  String.ofList (fillFrom 0 template.toList (args.map (·.toList)))

end ConstructorCheck.Text
