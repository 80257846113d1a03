import LinkShelf.Text.Blank
import LinkShelf.Url.Address

/-!
Colors: six hexadecimal digits, kept in lower case after a number sign.
-/

namespace LinkShelf.Color

open Text

/-- What a text says about a color. -/
inductive Reading where
  /-- The text is blank and names no color. -/
  | absent
  | color (normal : String)
  | invalid
  deriving DecidableEq, Repr

/-- The text without a number sign in front. -/
def digitsOf : List Char → List Char
  | '#' :: rest => rest
  | cs => cs

/-- The color that a text names; the number sign may be missing. -/
def read (s : String) : Reading :=
  match strip s.toList with
  | [] => .absent
  | cs =>
    let digits := digitsOf cs
    if digits.length = 6 ∧ digits.all Url.isHexDigit then
      .color (String.ofList ('#' :: digits.map Char.toLower))
    else .invalid

end LinkShelf.Color
