import ConstructorCheck.Text.Template
/-!
# Styled text

Output is put together from fragments, each in one style or in none. Painting turns them into text:
with colours, a styled fragment stands between the escape that opens its style and the one that
resets it; without, its text stands alone.

A reset inside a styled fragment would end its style early, so the style is opened again after it.
-/

namespace ConstructorCheck.Report

/-- The styles of the output. -/
inductive Style where
  | boldRed
  | boldYellow
  | boldBlue
  | boldCyan
  | brightBlue
  | red
  | green
  | dimmed
deriving DecidableEq, Repr

/-- The parameters of the escape that opens a style. -/
def Style.codes : Style → String
  | .boldRed => "1;31"
  | .boldYellow => "1;33"
  | .boldBlue => "1;34"
  | .boldCyan => "1;36"
  | .brightBlue => "94"
  | .red => "31"
  | .green => "32"
  | .dimmed => "2"

/-- The escape with some parameters. -/
def escape (codes : String) : List Char := '\x1b' :: '[' :: codes.toList ++ ['m']

/-- The escape that ends every style. -/
def reset : List Char := escape "0"

/-- A piece of output in one style, or in none. -/
structure Fragment where
  style? : Option Style
  text : String
deriving DecidableEq, Repr

namespace Fragment

/-- A piece of output without style. -/
def plain (text : String) : Fragment := ⟨none, text⟩

/-- A piece of output in a style. -/
def styled (style : Style) (text : String) : Fragment := ⟨some style, text⟩

/-- The characters of a fragment, with or without colours. -/
def paint (color : Bool) (x : Fragment) : List Char :=
  match x.style?, color with
  | some s, true =>
    let opening := escape s.codes
    opening ++ Text.replaceAll reset (reset ++ opening) x.text.toList ++ reset
  | _, _ => x.text.toList

end Fragment

/-- The text of some fragments, with or without colours. -/
def paint (color : Bool) (xs : List Fragment) : String :=
  String.ofList (xs.flatMap (·.paint color))

/-- Each part is painted by itself, so whoever puts parts together may choose for all of them. -/
theorem paint_append (color : Bool) (xs ys : List Fragment) :
    paint color (xs ++ ys) = paint color xs ++ paint color ys := by
  rw [paint, List.flatMap_append, String.ofList_append, paint, paint]

theorem paint_plain (color : Bool) (text : String) : paint color [.plain text] = text := by
  rw [paint, List.flatMap_singleton]
  exact String.ofList_toList

/-- A styled part is the text that is printed without colours, between two escapes. -/
theorem paint_styled (color : Bool) (s : Style) (text : String) : paint color [.styled s text] =
    if color then
      String.ofList (escape s.codes ++
        Text.replaceAll reset (reset ++ escape s.codes) text.toList ++ reset)
    else text := by
  rw [paint, List.flatMap_singleton]
  cases color with
  | true => rfl
  | false => exact String.ofList_toList

end ConstructorCheck.Report
