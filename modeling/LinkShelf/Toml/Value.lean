import LinkShelf.Calendar.Instant
import LinkShelf.Json.Basic
import LinkShelf.Json.Display

/-!
TOML values: texts, numbers, truth values, dates and times, lists and tables. One more value stands
where there is none; no document holds it.
-/

namespace LinkShelf.Toml

/-- A calendar date. -/
structure LocalDate where
  year : Nat
  month : Nat
  day : Nat
  deriving DecidableEq, Repr

/-- A TOML value. The offset of a moment is in minutes; one without an offset has none. -/
inductive Value where
  | nothing
  | bool (b : Bool)
  | int (n : Int)
  | float (x : Binary64)
  | text (s : String)
  | date (d : LocalDate)
  | time (t : TimeOfDay)
  | moment (d : LocalDate) (t : TimeOfDay) (offset : Option Int)
  | list (items : List Value)
  | table (members : List (String × Value))
  deriving Repr, Inhabited

namespace Value

def numberText (n : Nat) : List Char := Nat.toDigits 10 n

/-- Numbers with commas between. -/
def numbersText : List Nat → List Char
  | [] => []
  | [n] => numberText n
  | n :: m :: rest => numberText n ++ ',' :: ' ' :: numbersText (m :: rest)

/-- The parts of a clock time that are written: the seconds only where they or what follows them
are not zero. -/
def clockParts (t : TimeOfDay) : List Nat :=
  if t.micro ≠ 0 then [t.hour, t.minute, t.second, t.micro]
  else if t.second ≠ 0 then [t.hour, t.minute, t.second]
  else [t.hour, t.minute]

/-- An offset in minutes as messages show it. -/
def offsetText (minutes : Int) : List Char :=
  if minutes = 0 then "datetime.timezone.utc".toList
  else
    let days := minutes.fdiv 1440
    let seconds := (minutes.fmod 1440).toNat * 60
    "datetime.timezone(datetime.timedelta(".toList ++
      (if days = 0 then [] else "days=".toList ++ Number.integerText days ++ ", ".toList) ++
      "seconds=".toList ++ numberText seconds ++ "))".toList

mutual

/-- The value as messages show it. -/
def shown : Value → List Char
  | .nothing => Json.shown .null
  | .bool b => Json.shown (.bool b)
  | .int n => Number.integerText n
  | .float x => x.shortestText
  | .text s => Text.quoted s.toList
  | .date d => "datetime.date(".toList ++ numbersText [d.year, d.month, d.day] ++ [')']
  | .time t => "datetime.time(".toList ++ numbersText (clockParts t) ++ [')']
  | .moment d t offset =>
    "datetime.datetime(".toList ++ numbersText ([d.year, d.month, d.day] ++ clockParts t) ++
      (match offset with
        | some minutes => ", tzinfo=".toList ++ offsetText minutes
        | none => []) ++ [')']
  | .list items => '[' :: shownItems items ++ [']']
  | .table members => '{' :: shownMembers members ++ ['}']

def shownItems : List Value → List Char
  | [] => []
  | [v] => shown v
  | v :: w :: rest => shown v ++ ',' :: ' ' :: shownItems (w :: rest)

def shownMembers : List (String × Value) → List Char
  | [] => []
  | [(name, v)] => Text.quoted name.toList ++ ':' :: ' ' :: shown v
  | (name, v) :: m :: rest =>
    Text.quoted name.toList ++ ':' :: ' ' :: shown v ++ ',' :: ' ' :: shownMembers (m :: rest)

end

mutual

/-- The value with dates and times as texts. -/
def toJson : Value → Json
  | .nothing => .null
  | .bool b => .bool b
  | .int n => .int n
  | .float x => .float x
  | .text s => .text s
  | .list items => .list (toJsonItems items)
  | .table members => .object (toJsonMembers members)
  | .date d => .text (String.ofList (shown (.date d)))
  | .time t => .text (String.ofList (shown (.time t)))
  | .moment d t offset => .text (String.ofList (shown (.moment d t offset)))

def toJsonItems : List Value → List Json
  | [] => []
  | v :: rest => toJson v :: toJsonItems rest

def toJsonMembers : List (String × Value) → List (String × Json)
  | [] => []
  | (name, v) :: rest => (name, toJson v) :: toJsonMembers rest

end

/-- The name of the kind of a value in messages. -/
def kindName : Value → String
  | .nothing => "NoneType"
  | .bool _ => "bool"
  | .int _ => "int"
  | .float _ => "float"
  | .text _ => "str"
  | .date _ => "date"
  | .time _ => "time"
  | .moment _ _ _ => "datetime"
  | .list _ => "list"
  | .table _ => "dict"

def isCalendrical : Value → Bool
  | .date _ | .time _ | .moment _ _ _ => true
  | _ => false

/-- The name of the kind in messages about comparisons, where dates and times are named in full. -/
def fullKindName (v : Value) : String :=
  if v.isCalendrical then "datetime." ++ v.kindName else v.kindName

end Value

/-- The members of a table. -/
abbrev Table := List (String × Value)

end LinkShelf.Toml
