import LinkShelf.Number.Binary64

/-!
JSON values. Integers and floating-point numbers are told apart; the members of an object keep
their order and their names are distinct.
-/

namespace LinkShelf

/-- A JSON value. -/
inductive Json where
  | null
  | bool (b : Bool)
  | int (n : Int)
  | float (x : Binary64)
  | text (s : String)
  | list (items : List Json)
  | object (members : List (String × Json))
  deriving Repr, Inhabited

namespace Json

/-- The kinds of value, as messages name them. -/
inductive Kind where
  | null
  | bool
  | int
  | float
  | text
  | list
  | object
  deriving DecidableEq, Repr

def kind : Json → Kind
  | .null => .null
  | .bool _ => .bool
  | .int _ => .int
  | .float _ => .float
  | .text _ => .text
  | .list _ => .list
  | .object _ => .object

/-- The name of a kind in messages. -/
def Kind.name : Kind → String
  | .null => "NoneType"
  | .bool => "bool"
  | .int => "int"
  | .float => "float"
  | .text => "str"
  | .list => "list"
  | .object => "dict"

/-- The values that stand for nothing: `null`, `false`, zero, and empty texts, lists and
objects. -/
def isBlank : Json → Bool
  | .null => true
  | .bool b => !b
  | .int n => n == 0
  | .float x => x.isZero
  | .text s => s.isEmpty
  | .list items => items.isEmpty
  | .object members => members.isEmpty

def isNull : Json → Bool
  | .null => true
  | _ => false

/-- The value, or `other` in place of a blank one. -/
def orElse (v other : Json) : Json := if v.isBlank then other else v

/-- The value of a member. -/
def member? (name : String) : Json → Option Json
  | .object members => members.lookup name
  | _ => none

/-- The members with one of them given a value: in its place when the name is there already, else
at the end. -/
def putMember (name : String) (v : Json) : List (String × Json) → List (String × Json)
  | [] => [(name, v)]
  | (n, w) :: rest => if n = name then (n, v) :: rest else (n, w) :: putMember name v rest

/-- An optional text; a missing one is `null`. -/
def ofText? : Option String → Json
  | some s => .text s
  | none => .null

end Json

end LinkShelf
