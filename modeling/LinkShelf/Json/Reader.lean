import LinkShelf.Json.Basic
import LinkShelf.Number.Integer

/-!
Reading JSON texts. Besides standard JSON the words `NaN`, `Infinity` and `-Infinity` are numbers;
the last of several members of one name counts. A fault carries the text from the place where it
was found, from which its line and column follow.
-/

namespace LinkShelf

namespace Json

/-- What is wrong with a JSON text. -/
inductive FaultKind where
  | byteOrderMark
  | expectedValue
  | expectedName
  | expectedColon
  | expectedComma
  | unterminatedText
  | controlCharacter
  | unknownEscape
  | badUnicodeEscape
  | extraData
  deriving DecidableEq, Repr

def FaultKind.message : FaultKind → String
  | .byteOrderMark => "Unexpected UTF-8 BOM (decode using utf-8-sig)"
  | .expectedValue => "Expecting value"
  | .expectedName => "Expecting property name enclosed in double quotes"
  | .expectedColon => "Expecting ':' delimiter"
  | .expectedComma => "Expecting ',' delimiter"
  | .unterminatedText => "Unterminated string starting at"
  | .controlCharacter => "Invalid control character at"
  | .unknownEscape => "Invalid \\escape"
  | .badUnicodeEscape => "Invalid \\uXXXX escape"
  | .extraData => "Extra data"

/-- Why reading stopped: a fault and the text that begins at it, or an integer with too many
digits. -/
inductive Stop where
  | fault (kind : FaultKind) (rest : List Char)
  | oversized (digits : Nat)
  deriving DecidableEq, Repr

/-- A place in a text, counted in characters. -/
structure Place where
  line : Nat
  column : Nat
  offset : Nat
  deriving DecidableEq, Repr

/-- The place after the characters in `before`. -/
def Place.after (before : List Char) : Place :=
  ⟨before.count '\n' + 1, (before.reverse.takeWhile (· ≠ '\n')).length + 1, before.length⟩

/-- Why a text is not read as a JSON value. -/
inductive ReadError where
  | malformed (kind : FaultKind) (place : Place)
  | oversized (digits : Nat)
  deriving DecidableEq, Repr

/-- The white space of JSON texts. -/
def isSpace (c : Char) : Bool := c = ' ' || c = '\t' || c = '\n' || c = '\r'

def skipSpace (cs : List Char) : List Char := cs.dropWhile isSpace

/-- The value of a hexadecimal digit. -/
def hexValue? (c : Char) : Option Nat :=
  if '0' ≤ c ∧ c ≤ '9' then some (c.toNat - '0'.toNat)
  else if 'a' ≤ c ∧ c ≤ 'f' then some (c.toNat - 'a'.toNat + 10)
  else if 'A' ≤ c ∧ c ≤ 'F' then some (c.toNat - 'A'.toNat + 10)
  else none

/-- The value of four hexadecimal digits. -/
def unit? (a b c d : Char) : Option Nat := do
  let a ← hexValue? a
  let b ← hexValue? b
  let c ← hexValue? c
  let d ← hexValue? d
  return ((a * 16 + b) * 16 + c) * 16 + d

/-- The character that a one-letter escape stands for. -/
def simpleEscape? : Char → Option Char
  | '"' => some '"'
  | '\\' => some '\\'
  | '/' => some '/'
  | 'b' => some (Char.ofNat 8)
  | 'f' => some (Char.ofNat 12)
  | 'n' => some '\n'
  | 'r' => some '\r'
  | 't' => some '\t'
  | _ => none

/-- The character that stands in for half of a surrogate pair. -/
def replacement : Char := Char.ofNat 0xFFFD

def isHighSurrogate (n : Nat) : Bool := 0xD800 ≤ n && n < 0xDC00
def isLowSurrogate (n : Nat) : Bool := 0xDC00 ≤ n && n < 0xE000

/-- The character of a 16-bit unit on its own. -/
def unitChar (n : Nat) : Char :=
  if isHighSurrogate n || isLowSurrogate n then replacement else Char.ofNat n

/-- What a text holds up to its closing quote, and what follows the quote; `start` is the text
from its opening quote. -/
def readTextBody (start : List Char) : List Char → Except Stop (List Char × List Char)
  | [] => .error (.fault .unterminatedText start)
  | '"' :: rest => .ok ([], rest)
  | '\\' :: [] => .error (.fault .unterminatedText start)
  | '\\' :: 'u' :: a :: b :: c :: d :: e :: rest =>
    match unit? a b c d with
    | none => .error (.fault .badUnicodeEscape ('u' :: a :: b :: c :: d :: e :: rest))
    | some high =>
      match e, rest with
      | '\\', 'u' :: a' :: b' :: c' :: d' :: f :: rest' =>
        if isHighSurrogate high then
          match unit? a' b' c' d' with
          | none => .error (.fault .badUnicodeEscape ('u' :: a' :: b' :: c' :: d' :: f :: rest'))
          | some low =>
            if isLowSurrogate low then
              (readTextBody start (f :: rest')).map fun (s, r) =>
                (Char.ofNat (0x10000 + (high - 0xD800) * 0x400 + (low - 0xDC00)) :: s, r)
            else
              (readTextBody start ('\\' :: 'u' :: a' :: b' :: c' :: d' :: f :: rest')).map
                fun (s, r) => (unitChar high :: s, r)
        else
          (readTextBody start ('\\' :: 'u' :: a' :: b' :: c' :: d' :: f :: rest')).map
            fun (s, r) => (unitChar high :: s, r)
      | e, rest => (readTextBody start (e :: rest)).map fun (s, r) => (unitChar high :: s, r)
  | '\\' :: c :: rest =>
    if c = 'u' then .error (.fault .badUnicodeEscape (c :: rest))
    else
      match simpleEscape? c with
      | some d => (readTextBody start rest).map fun (s, r) => (d :: s, r)
      | none => .error (.fault .unknownEscape ('\\' :: c :: rest))
  | c :: rest =>
    if c.toNat < 32 then .error (.fault .controlCharacter (c :: rest))
    else (readTextBody start rest).map fun (s, r) => (c :: s, r)
termination_by cs => cs.length

/-- The ASCII digits at the start of a text and the rest. -/
def asciiDigits (cs : List Char) : List Char × List Char := cs.span Char.isDigit

/-- The whole part of a number: zero alone or digits that start with another one. -/
def wholePart? : List Char → Option (List Char × List Char)
  | '0' :: rest => some (['0'], rest)
  | cs =>
    match asciiDigits cs with
    | ([], _) => none
    | parts => some parts

/-- The digits after a point, if a point and a digit follow. -/
def fractionPart? : List Char → Option (List Char × List Char)
  | '.' :: rest =>
    match asciiDigits rest with
    | ([], _) => none
    | parts => some parts
  | _ => none

/-- The sign and the digits of an exponent, if one follows. -/
def exponentPart? : List Char → Option (Int × List Char)
  | e :: rest =>
    if e = 'e' ∨ e = 'E' then
      let (negative, rest) : Bool × List Char :=
        match rest with
        | '-' :: r => (true, r)
        | '+' :: r => (false, r)
        | r => (false, r)
      match asciiDigits rest with
      | ([], _) => none
      | (digits, r) =>
        let n : Int := Text.numberOf digits
        some (if negative then -n else n, r)
    else none
  | [] => none

/-- A number at the start of a text, and the rest. An integer with more digits than the limit is
refused. -/
def readNumber (limit : Option Nat) (cs : List Char) : Except Stop (Json × List Char) :=
  let (negative, body) : Bool × List Char :=
    match cs with
    | '-' :: rest => (true, rest)
    | _ => (false, cs)
  match wholePart? body with
  | none => .error (.fault .expectedValue cs)
  | some (whole, rest) =>
    let fraction := fractionPart? rest
    let afterFraction := match fraction with
      | some (_, r) => r
      | none => rest
    let exponent := exponentPart? afterFraction
    match fraction, exponent with
    | none, none =>
      if limit.any (· < whole.length) then .error (.oversized whole.length)
      else
        let n : Int := Text.numberOf whole
        .ok (.int (if negative then -n else n), rest)
    | _, _ =>
      let digits := match fraction with
        | some (ds, _) => ds
        | none => []
      let (shift, r) : Int × List Char := match exponent with
        | some (e, r) => (e, r)
        | none => (0, afterFraction)
      let x := Binary64.ofDecimal negative (Text.numberOf (whole ++ digits)) (shift - digits.length)
      .ok (.float x, r)

/-- The words that are values. -/
def words : List (List Char × Json) := [
  ("null".toList, .null),
  ("true".toList, .bool true),
  ("false".toList, .bool false),
  ("NaN".toList, .float .notANumber),
  ("Infinity".toList, .float (.infinite false)),
  ("-Infinity".toList, .float (.infinite true))]

/-- The word at the start of a text, as a value, and the rest. -/
def readWord? (cs : List Char) : Option (Json × List Char) :=
  (words.find? fun w => w.1.isPrefixOf cs).map fun w => (w.2, cs.drop w.1.length)

mutual

/-- The value at the start of a text, and the rest. -/
def readValue (limit : Option Nat) : Nat → List Char → Except Stop (Json × List Char)
  | 0, cs => .error (.fault .expectedValue cs)
  | fuel + 1, cs =>
    match cs with
    | '"' :: rest => do
      let (s, rest) ← readTextBody cs rest
      return (.text (String.ofList s), rest)
    | '[' :: rest =>
      match skipSpace rest with
      | ']' :: rest => .ok (.list [], rest)
      | rest => do
        let (items, rest) ← readItems limit fuel rest
        return (.list items, rest)
    | '{' :: rest =>
      match skipSpace rest with
      | '}' :: rest => .ok (.object [], rest)
      | rest => do
        let (members, rest) ← readMembers limit fuel [] rest
        return (.object members, rest)
    | _ =>
      match readWord? cs with
      | some found => .ok found
      | none => readNumber limit cs

/-- The items of a list up to its closing bracket. -/
def readItems (limit : Option Nat) : Nat → List Char → Except Stop (List Json × List Char)
  | 0, cs => .error (.fault .expectedValue cs)
  | fuel + 1, cs => do
    let (v, rest) ← readValue limit fuel cs
    match skipSpace rest with
    | ']' :: rest => return ([v], rest)
    | ',' :: rest =>
      let (items, rest) ← readItems limit fuel (skipSpace rest)
      return (v :: items, rest)
    | rest => throw (.fault .expectedComma rest)

/-- The members of an object up to its closing brace, put after those in `found`. -/
def readMembers (limit : Option Nat) : Nat → List (String × Json) → List Char →
    Except Stop (List (String × Json) × List Char)
  | 0, _, cs => .error (.fault .expectedName cs)
  | fuel + 1, found, cs =>
    match cs with
    | '"' :: rest => do
      let (name, rest) ← readTextBody cs rest
      match skipSpace rest with
      | ':' :: rest =>
        let (v, rest) ← readValue limit fuel (skipSpace rest)
        let found := putMember (String.ofList name) v found
        match skipSpace rest with
        | '}' :: rest => return (found, rest)
        | ',' :: rest => readMembers limit fuel found (skipSpace rest)
        | rest => throw (.fault .expectedComma rest)
      | rest => throw (.fault .expectedColon rest)
    | _ => .error (.fault .expectedName cs)

end

/-- The value that a whole text writes, or where it stops being JSON. -/
def readWhole (limit : Option Nat) (cs : List Char) : Except Stop Json := do
  if cs.head? = some (Char.ofNat 0xFEFF) then throw (.fault .byteOrderMark cs)
  let (v, rest) ← readValue limit (2 * cs.length + 2) (skipSpace cs)
  match skipSpace rest with
  | [] => return v
  | rest => throw (.fault .extraData rest)

/-- The value that a text writes, if no integer in it has more digits than the limit. -/
def readWithin (limit : Option Nat) (s : String) : Except ReadError Json :=
  let cs := s.toList
  match readWhole limit cs with
  | .ok v => .ok v
  | .error (.fault kind rest) =>
    .error (.malformed kind (.after (cs.take (cs.length - rest.length))))
  | .error (.oversized digits) => .error (.oversized digits)

/-- The value that a text writes. -/
def read (s : String) : Except ReadError Json := readWithin (some Number.maxDigits) s

end Json

end LinkShelf
