import LinkShelf.Text.Case
import LinkShelf.Text.HiddenTable

/-!
Texts as they are quoted in messages: between single quotes, or between double quotes when that
saves escaping a single quote, with characters that have no visible form written as escapes.
-/

namespace LinkShelf.Text

/-- The hexadecimal digits of a number in lower case, padded with zeros to a width. -/
def hexPadded (width n : Nat) : List Char :=
  let digits := Nat.toDigits 16 n
  List.replicate (width - digits.length) '0' ++ digits

/-- Whether the character is written as an escape in a quoted text. -/
def isHidden (c : Char) : Bool := inRanges hiddenRanges c.toNat

/-- A character inside a text quoted with `quote`. -/
def quotedChar (quote c : Char) : List Char :=
  if c = quote ∨ c = '\\' then ['\\', c]
  else if c = '\n' then ['\\', 'n']
  else if c = '\r' then ['\\', 'r']
  else if c = '\t' then ['\\', 't']
  else if isHidden c then
    if c.toNat < 0x100 then '\\' :: 'x' :: hexPadded 2 c.toNat
    else if c.toNat < 0x10000 then '\\' :: 'u' :: hexPadded 4 c.toNat
    else '\\' :: 'U' :: hexPadded 8 c.toNat
  else [c]

/-- The quote that a text is put between. -/
def quoteFor (cs : List Char) : Char :=
  if cs.contains '\'' && !cs.contains '"' then '"' else '\''

/-- The text between quotes. -/
def quoted (cs : List Char) : List Char :=
  let quote := quoteFor cs
  quote :: cs.flatMap (quotedChar quote) ++ [quote]

end LinkShelf.Text

/-- The text between quotes, as messages show it. -/
def LinkShelf.quote (s : String) : String := String.ofList (LinkShelf.Text.quoted s.toList)
