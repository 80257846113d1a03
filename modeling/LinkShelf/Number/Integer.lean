import LinkShelf.Text.Blank
import LinkShelf.Text.Digit
import LinkShelf.Text.Pieces

/-!
Integers written in base ten, as people type them: a sign, digits of any script, single underscores
between digits, white space around. A stricter form has plain digits only. Numbers of more than 4300
digits are refused both when read and when written.
-/

namespace LinkShelf

/-- Why a text is not read as an integer. -/
inductive IntegerFault where
  /-- The text does not write an integer. -/
  | notInteger
  /-- The text has more digits than are accepted. -/
  | tooManyDigits (count : Nat)
  deriving DecidableEq, Repr

namespace Number

open Text

/-- The most digits that an integer may have in a text. -/
def maxDigits : Nat := 4300

/-- White space that may stand around an integer: all but the four separators among the control
characters. -/
def isIntegerBlank (c : Char) : Bool := isBlank c && !(28 ≤ c.toNat && c.toNat ≤ 31)

/-- The digits at the start of a text and the rest. An underscore has a digit on each side;
`bound` says that no digit stands just before the text. -/
def digitRun? (bound : Bool) : List Char → Option (List Char × List Char)
  | [] => if bound then none else some ([], [])
  | c :: cs =>
    if isDigit c then (digitRun? false cs).map fun (digits, rest) => (c :: digits, rest)
    else if bound then none
    else if c = '_' then digitRun? true cs
    else some ([], c :: cs)

/-- The digits of an integer without a sign, and what they write. -/
def readNatural (cs : List Char) : Except IntegerFault Nat :=
  match digitRun? true cs with
  | none => .error .notInteger
  | some (digits, rest) =>
    if maxDigits < digits.length then .error (.tooManyDigits digits.length)
    else if rest.all isIntegerBlank then .ok (numberOf digits)
    else .error .notInteger

/-- The integer that a text writes. -/
def readInteger (cs : List Char) : Except IntegerFault Int :=
  match cs.dropWhile isIntegerBlank with
  | '-' :: rest => (readNatural rest).map fun n => -(n : Int)
  | '+' :: rest => (readNatural rest).map fun n => (n : Int)
  | rest => (readNatural rest).map fun n => (n : Int)

/-- The digits of a number without a sign, from the first that is not zero. Underscores may stand
after a zero in front of it, and single ones between two of the other digits. -/
def plainDigits? (cs : List Char) : Option (List Char) :=
  let digits := if cs.head? = some '0' then cs.dropWhile fun c => c == '0' || c == '_' else cs
  if digits.isEmpty then
    if cs.getLast? = some '0' then some [] else none
  else
    let groups := pieces (· == '_') digits
    if groups.all fun g => !g.isEmpty && g.all Char.isDigit then some groups.flatten else none

/-- The number that plain digits write, and perhaps a fraction of zeros after them. -/
def readPlainNatural? (cs : List Char) : Option Nat := do
  let whole ← match cutFirst (· == '.') cs with
    | none => some cs
    | some (whole, fraction) =>
      if !fraction.isEmpty && fraction.all (· == '0') then some whole else none
  let digits ← plainDigits? whole
  if maxDigits < digits.length then none else some (numberOf digits)

/-- The integer that a word writes in plain digits, with a sign and white space around. The word may
give it as a decimal, if its fraction is zero. -/
def readPlain? (cs : List Char) : Option Int :=
  match dropEndWhile isIntegerBlank (cs.dropWhile isIntegerBlank) with
  | '-' :: rest => (readPlainNatural? rest).map fun n => -(n : Int)
  | '+' :: rest => (readPlainNatural? rest).map fun n => (n : Int)
  | rest => (readPlainNatural? rest).map fun n => (n : Int)

/-- An integer in base ten. -/
def integerText (n : Int) : List Char :=
  if n < 0 then '-' :: Nat.toDigits 10 n.natAbs else Nat.toDigits 10 n.natAbs

/-- Whether an integer has more digits than may be written. -/
def isOversized (n : Int) : Bool := Nat.pow 10 maxDigits ≤ n.natAbs

end Number

end LinkShelf
