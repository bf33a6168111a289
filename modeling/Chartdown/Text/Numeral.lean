import Chartdown.Text.Blank
import Chartdown.Text.Digit

/-! # Numerals

A numeral is a decimal number as people write it: an optional sign, digits with at most one point
among them, and an optional exponent. The digits may be of any script.
-/

namespace Chartdown.Text

/-- The text behind an optional sign. -/
def dropSign : List Char → List Char
  | '+' :: s => s
  | '-' :: s => s
  | s => s

/-- Whether a text is digits and nothing else. -/
def isDigits (s : List Char) : Bool := !s.isEmpty && s.all isDigit

/-- Whether a text is nothing or an exponent. -/
def isExponent : List Char → Bool
  | [] => true
  | c :: s => (c == 'e' || c == 'E') && isDigits (dropSign s)

/-- Whether a text is digits with at most one point, and an optional exponent. -/
def isUnsigned (s : List Char) : Bool :=
  let whole := s.takeWhile isDigit
  match s.dropWhile isDigit with
  | '.' :: rest =>
    (!whole.isEmpty || !(rest.takeWhile isDigit).isEmpty) && isExponent (rest.dropWhile isDigit)
  | rest => !whole.isEmpty && isExponent rest

/-- Whether a text is a numeral. -/
def isNumeral (s : List Char) : Bool := isUnsigned (dropSign s)

end Chartdown.Text
