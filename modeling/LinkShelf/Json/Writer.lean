import LinkShelf.Json.Basic
import LinkShelf.Number.Integer
import LinkShelf.Number.Shortest
import LinkShelf.Text.Quoted

/-!
JSON values as JSON texts, on one line or with each item on a line of its own.
-/

namespace LinkShelf.Json

open Text

/-- How a JSON text is laid out. -/
structure Layout where
  /-- Spaces per level when every item has its own line. -/
  indent : Option Nat
  /-- Whether characters outside ASCII are written as escapes. -/
  asciiOnly : Bool
  deriving DecidableEq, Repr

/-- The layout of record files and of lists of records. -/
def Layout.indented : Layout := ⟨some 2, false⟩

/-- One line. -/
def Layout.line : Layout := ⟨none, false⟩

/-- One line of ASCII characters. -/
def Layout.asciiLine : Layout := ⟨none, true⟩

/-- An escape of a 16-bit unit. -/
def unitEscape (n : Nat) : List Char := '\\' :: 'u' :: hexPadded 4 n

/-- A character inside a JSON text. -/
def escapedChar (asciiOnly : Bool) (c : Char) : List Char :=
  if c = '"' ∨ c = '\\' then ['\\', c]
  else if c = '\n' then ['\\', 'n']
  else if c = '\r' then ['\\', 'r']
  else if c = '\t' then ['\\', 't']
  else if c.toNat = 8 then ['\\', 'b']
  else if c.toNat = 12 then ['\\', 'f']
  else if c.toNat < 32 then unitEscape c.toNat
  else if asciiOnly && 127 ≤ c.toNat then
    if c.toNat < 0x10000 then unitEscape c.toNat
    else
      let n := c.toNat - 0x10000
      unitEscape (0xD800 + n / 0x400) ++ unitEscape (0xDC00 + n % 0x400)
  else [c]

def writeText (asciiOnly : Bool) (s : String) : List Char :=
  '"' :: s.toList.flatMap (escapedChar asciiOnly) ++ ['"']

def writeFloat : Binary64 → List Char
  | .notANumber => "NaN".toList
  | .infinite false => "Infinity".toList
  | .infinite true => "-Infinity".toList
  | x => x.shortestText

namespace Layout

/-- What stands before an item at a depth. -/
def breakLine (l : Layout) (depth : Nat) : List Char :=
  match l.indent with
  | some k => '\n' :: List.replicate (k * depth) ' '
  | none => []

/-- What stands between two items at a depth. -/
def separator (l : Layout) (depth : Nat) : List Char :=
  match l.indent with
  | some _ => ',' :: l.breakLine depth
  | none => [',', ' ']

end Layout

mutual

/-- The JSON text of a value that stands at a depth of nested lists and objects. -/
def writeAt (l : Layout) (depth : Nat) : Json → List Char
  | .null => "null".toList
  | .bool true => "true".toList
  | .bool false => "false".toList
  | .int n => Number.integerText n
  | .float x => writeFloat x
  | .text s => writeText l.asciiOnly s
  | .list [] => ['[', ']']
  | .list (v :: rest) =>
    '[' :: l.breakLine (depth + 1) ++ writeAt l (depth + 1) v ++ writeItems l (depth + 1) rest ++
      l.breakLine depth ++ [']']
  | .object [] => ['{', '}']
  | .object ((name, v) :: rest) =>
    '{' :: l.breakLine (depth + 1) ++ writeText l.asciiOnly name ++ ':' :: ' ' ::
      writeAt l (depth + 1) v ++ writeMembers l (depth + 1) rest ++ l.breakLine depth ++ ['}']

/-- The items after the first one. -/
def writeItems (l : Layout) (depth : Nat) : List Json → List Char
  | [] => []
  | v :: rest => l.separator depth ++ writeAt l depth v ++ writeItems l depth rest

/-- The members after the first one. -/
def writeMembers (l : Layout) (depth : Nat) : List (String × Json) → List Char
  | [] => []
  | (name, v) :: rest =>
    l.separator depth ++ writeText l.asciiOnly name ++ ':' :: ' ' :: writeAt l depth v ++
      writeMembers l depth rest

end

/-- The JSON text of a value. -/
def write (l : Layout) (v : Json) : String := String.ofList (writeAt l 0 v)

end LinkShelf.Json
