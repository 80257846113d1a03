import LinkShelf.Text.Pieces

/-!
Paths: names with slashes between. Empty names and single full stops count for nothing.
-/

namespace LinkShelf

/-- Where a path starts: at the working directory or at the root. A start at the root is written
with one slash; one written with two is told apart, though it leads to the same place. -/
inductive Start where
  | here
  | root
  | doubleRoot
  deriving DecidableEq, Repr

def Start.text : Start → String
  | .here => ""
  | .root => "/"
  | .doubleRoot => "//"

/-- A path: where it starts, and the names on the way. -/
structure Path where
  start : Start
  parts : List String
  deriving DecidableEq, Repr

namespace Path

open Text

/-- The names in a text, without those that count for nothing. -/
def partsOf (cs : List Char) : List String :=
  ((pieces (· == '/') cs).filter fun p => !p.isEmpty && p != ['.']).map String.ofList

/-- Where a text starts: three slashes or more count as one. -/
def startOf : List Char → Start
  | '/' :: '/' :: '/' :: _ => .root
  | '/' :: '/' :: _ => .doubleRoot
  | '/' :: _ => .root
  | _ => .here

/-- A path in the working directory. -/
def ofParts (parts : List String) : Path := ⟨.here, parts⟩

/-- The path that a text writes. -/
def ofText (s : String) : Path := ⟨startOf s.toList, partsOf s.toList⟩

/-- The path as it is written; the working directory is a full stop. -/
def text (p : Path) : String :=
  if p.start = .here ∧ p.parts = [] then "."
  else p.start.text ++ String.intercalate "/" p.parts

/-- A path from another one; one that starts at the root stays as it is. -/
def join (p q : Path) : Path := if q.start = .here then ⟨p.start, p.parts ++ q.parts⟩ else q

/-- A name in a directory. -/
def child (p : Path) (name : String) : Path := ⟨p.start, p.parts ++ [name]⟩

def parent (p : Path) : Path := ⟨p.start, p.parts.dropLast⟩

/-- The path as far as its first `n` names. -/
def upTo (p : Path) (n : Nat) : Path := ⟨p.start, p.parts.take n⟩

/-- The path with a leading tilde replaced by the home directory, if that is known. There is no
other user's home. -/
def expandHome? (home : Option Path) (p : Path) : Option Path :=
  if p.start ≠ .here then some p
  else
    match p.parts with
    | "~" :: rest => home.map fun h => h.join (ofParts rest)
    | first :: _ => if first.toList.head? = some '~' then none else some p
    | [] => some p

end Path

end LinkShelf
