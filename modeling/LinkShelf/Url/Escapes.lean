import LinkShelf.Number.Integer
import LinkShelf.Url.Address

/-!
Percent escapes. An escape of an unreserved character is undone, and any other one is kept with its
letters in upper case.
-/

namespace LinkShelf.Url

open Text

/-- Letters, digits and the four marks that never need an escape. -/
def isUnreserved (c : Char) : Bool := c.isAlphanum || c = '-' || c = '.' || c = '_' || c = '~'

/-- The value of a hexadecimal digit; a decimal digit may be of any script. -/
def hexDigitValue? (c : Char) : Option Nat :=
  if 'a' ≤ c && c ≤ 'f' then some (c.toNat - 'a'.toNat + 10)
  else if 'A' ≤ c && c ≤ 'F' then some (c.toNat - 'A'.toNat + 10)
  else digitValue? c

/-- The code that the two characters after a percent sign write: two digits, or one digit beside
white space or after a sign. -/
def escapeCode? (a b : Char) : Option Nat :=
  match hexDigitValue? a, hexDigitValue? b with
  | some high, some low => some (16 * high + low)
  | some n, none => if Number.isIntegerBlank b then some n else none
  | none, some n =>
    if Number.isIntegerBlank a || a = '+' then some n
    else if a = '-' && n == 0 then some 0
    else none
  | none, none => none

/-- What an escape is written as. -/
def settledEscape (a b : Char) (code : Nat) : List Char :=
  if isUnreserved (Char.ofNat code) then [Char.ofNat code] else ['%', a.toUpper, b.toUpper]

/-- The text with the escapes of unreserved characters undone and the letters of all others in upper
case. A percent sign that begins no escape stays as it is. -/
def decodeUnreserved : List Char → List Char
  | '%' :: a :: b :: rest =>
    match escapeCode? a b with
    | some code => settledEscape a b code ++ decodeUnreserved rest
    | none => '%' :: decodeUnreserved (a :: b :: rest)
  | c :: rest => c :: decodeUnreserved rest
  | [] => []

end LinkShelf.Url
