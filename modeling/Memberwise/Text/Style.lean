/-!
# Terminal styles

A styled text is enclosed by the escape sequence that selects the style and the one that resets it.
A reset inside the text would end the style too early, so the style is selected again after it.
-/

namespace Memberwise.Text

inductive Style where
  | bold
  | dimmed
  | red
  | cyan
deriving DecidableEq, Repr

namespace Style

/-- The escape sequence that selects a style. -/
def opening : Style → List Char
  | bold => "\x1b[1m".toList
  | dimmed => "\x1b[2m".toList
  | red => "\x1b[31m".toList
  | cyan => "\x1b[36m".toList

def reset : List Char := "\x1b[0m".toList

/-- Select the style again after every reset inside a text. -/
def reopen (style : Style) : List Char → List Char
  | '\x1b' :: '[' :: '0' :: 'm' :: rest => reset ++ style.opening ++ reopen style rest
  | c :: rest => c :: reopen style rest
  | [] => []

/-- A text in a style, or as it is if there is no colour. -/
def paint (colour : Bool) (style : Style) (text : List Char) : List Char :=
  if colour then style.opening ++ reopen style text ++ reset else text

@[simp] theorem paint_false (style : Style) (text : List Char) :
    paint false style text = text := rfl

end Style

end Memberwise.Text
