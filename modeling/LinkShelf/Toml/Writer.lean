import LinkShelf.Text.Pieces
import LinkShelf.Toml.Value

/-!
Writing TOML documents: the plain members of a table first, then its tables and the tables in its
lists, each under a heading and after an empty line. Writing stops at a value that cannot be
written; what was written before it stays.
-/

namespace LinkShelf.Toml

open Text

/-- A character inside a quoted text. -/
def escapedChar (c : Char) : List Char :=
  if c = '"' ∨ c = '\\' then ['\\', c]
  else if c = '\n' then ['\\', 'n']
  else if c = '\r' then ['\\', 'r']
  else if c.toNat = 8 then ['\\', 'b']
  else if c.toNat = 12 then ['\\', 'f']
  else if (c.toNat < 32 && c != '\t') || c.toNat = 127 then '\\' :: 'u' :: hexPadded 4 c.toNat
  else [c]

def writeText (s : String) : List Char := '"' :: s.toList.flatMap escapedChar ++ ['"']

def isBareChar (c : Char) : Bool := c.isAlphanum || c = '-' || c = '_'

/-- A part of a key, quoted unless it has plain characters only. -/
def writeKeyPart (name : String) : List Char :=
  if !name.isEmpty && name.toList.all isBareChar then name.toList else writeText name

def dateText (d : LocalDate) : List Char :=
  (paddedNumber 4 d.year ++ "-" ++ paddedNumber 2 d.month ++ "-" ++ paddedNumber 2 d.day).toList

def timeText (t : TimeOfDay) : List Char :=
  (paddedNumber 2 t.hour ++ ":" ++ paddedNumber 2 t.minute ++ ":" ++ paddedNumber 2 t.second ++
    (if t.micro = 0 then "" else "." ++ paddedNumber 6 t.micro)).toList

/-- An offset in minutes. -/
def writeOffset : Option Int → List Char
  | none => []
  | some minutes =>
    ((if minutes < 0 then "-" else "+") ++ paddedNumber 2 (minutes.natAbs / 60) ++ ":" ++
      paddedNumber 2 (minutes.natAbs % 60)).toList

/-- Why a value cannot be written. -/
inductive WriteFault where
  | nothing
  /-- An integer has too many digits. -/
  | oversized
  deriving DecidableEq, Repr

mutual

/-- A value after an equals sign. The items of a list stand on lines of their own, deeper by one
step than the list; in a table on one line, depth is counted from the margin again. -/
def writeValue (depth : Nat) : Value → Except WriteFault (List Char)
  | .nothing => .error .nothing
  | .bool true => .ok "true".toList
  | .bool false => .ok "false".toList
  | .int n => if Number.isOversized n then .error .oversized else .ok (Number.integerText n)
  | .float x => .ok x.shortestText
  | .text s => .ok (writeText s)
  | .date d => .ok (dateText d)
  | .time t => .ok (timeText t)
  | .moment d t offset => .ok (dateText d ++ ' ' :: timeText t ++ writeOffset offset)
  | .list [] => .ok ['[', ']']
  | .list (v :: rest) => do
    let items ← writeItems depth (v :: rest)
    return '[' :: '\n' :: items ++ List.replicate (4 * depth) ' ' ++ [']']
  | .table [] => .ok ['{', '}']
  | .table (m :: rest) => do
    return '{' :: ' ' :: joinWith [',', ' '] (← writeMembers (m :: rest)) ++ [' ', '}']

def writeItems (depth : Nat) : List Value → Except WriteFault (List Char)
  | [] => .ok []
  | v :: rest => do
    let item ← writeValue (depth + 1) v
    let more ← writeItems depth rest
    return List.replicate (4 * (depth + 1)) ' ' ++ item ++ ',' :: '\n' :: more

def writeMembers : List (String × Value) → Except WriteFault (List (List Char))
  | [] => .ok []
  | (name, v) :: rest => do
    let written ← writeValue 0 v
    let more ← writeMembers rest
    return (writeKeyPart name ++ " = ".toList ++ written) :: more

end

/-- The longest line that holds a table in a list. -/
def maxLineLength : Nat := 100

/-- Whether a table in a list fits on a line of its own. -/
def fitsLine (v : Value) : Except WriteFault Bool := do
  let written ← writeValue 0 v
  return 4 + written.length + 1 ≤ maxLineLength && !written.contains '\n'

def isTable : Value → Bool
  | .table _ => true
  | _ => false

/-- Whether all values fit, as far as the first that does not. -/
def fitLines : List Value → Except WriteFault Bool
  | [] => .ok true
  | v :: rest => do if ← fitsLine v then fitLines rest else return false

/-- Whether a value is written in sections of its own: tables are, and lists of tables that do not
all fit on lines. -/
def isApart : Value → Except WriteFault Bool
  | .table _ => .ok true
  | .list [] => .ok false
  | .list items => if items.all isTable then (fitLines items).map (!·) else .ok false
  | _ => .ok false

/-- A text, as far as it could be written, and what stopped the writing. -/
structure Draft where
  text : List Char
  fault? : Option WriteFault

namespace Draft

def empty : Draft := ⟨[], none⟩

def ofText (text : List Char) : Draft := ⟨text, none⟩

def ofResult : Except WriteFault (List Char) → Draft
  | .ok text => ⟨text, none⟩
  | .error fault => ⟨[], some fault⟩

/-- One draft after another, unless that was stopped. -/
def append (a b : Draft) : Draft :=
  match a.fault? with
  | some _ => a
  | none => ⟨a.text ++ b.text, b.fault?⟩

def concat (drafts : List Draft) : Draft := drafts.foldr append empty

end Draft

/-- The line of a member that has no section of its own. -/
def plainLine (m : String × Value) : Draft :=
  .ofResult do
    let written ← writeValue 0 m.2
    return writeKeyPart m.1 ++ " = ".toList ++ written ++ ['\n']

/-- Which members have sections of their own. -/
def apartness (members : Table) : Except WriteFault (List Bool) := members.mapM fun m => isApart m.2

/-- How the heading of a section stands in brackets. -/
inductive Bracket where
  | table
  /-- One of several tables under the same heading. -/
  | item
  deriving DecidableEq

def Bracket.line (heading : List Char) : Bracket → List Char
  | .table => '[' :: heading ++ [']', '\n']
  | .item => '[' :: '[' :: heading ++ [']', ']', '\n']

/-- The section of a table: its heading, the lines of its plain members, and the sections of the
others, with an empty line before each that is not the first thing. A table without plain members
needs no heading if it has sections, unless it is one of several. -/
def assemble (heading : List Char) (bracket : Bracket) (members : Table) (sections : List Draft) :
    Draft :=
  match apartness members with
  | .error fault => ⟨[], some fault⟩
  | .ok apart =>
    let plain := (members.zip apart).filterMap fun (m, apart) => if apart then none else some m
    let headed :=
      bracket = .item || (!heading.isEmpty && (!plain.isEmpty || sections.isEmpty))
    let top := (if headed then [Draft.ofText (bracket.line heading)] else []) ++
      plain.map plainLine
    let gap (nothingBefore : Bool) : Draft := if nothingBefore then .empty else .ofText ['\n']
    match sections with
    | [] => .concat top
    | first :: more =>
      .concat (top ++ gap top.isEmpty :: first :: more.flatMap fun later => [gap false, later])

/-- The heading of a member of a table. -/
def subheading (heading : List Char) (name : String) : List Char :=
  if heading.isEmpty then writeKeyPart name else heading ++ '.' :: writeKeyPart name

mutual

/-- The sections of a member that is written apart. -/
def sectionsOf (heading : List Char) : Value → List Draft
  | .table members => [assemble heading .table members (innerSections heading members)]
  | .list items =>
    match isApart (.list items) with
    | .ok true => itemSections heading items
    | _ => []
  | _ => []

/-- The sections of the members of a table that are written apart. -/
def innerSections (heading : List Char) : List (String × Value) → List Draft
  | [] => []
  | (name, v) :: rest => sectionsOf (subheading heading name) v ++ innerSections heading rest

/-- The sections of the tables in a list. -/
def itemSections (heading : List Char) : List Value → List Draft
  | [] => []
  | .table members :: rest =>
    assemble heading .item members (innerSections heading members) :: itemSections heading rest
  | _ :: rest => itemSections heading rest

end

/-- The document of a table. -/
def write (members : Table) : Draft := assemble [] .table members (innerSections [] members)

end LinkShelf.Toml
