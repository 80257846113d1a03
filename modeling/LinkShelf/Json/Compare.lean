import LinkShelf.Json.Basic

/-!
Equality and order of JSON values. Numbers are compared by value whatever their form, and the
truth values count as one and zero; texts are ordered by code points and lists item by item.
-/

namespace LinkShelf

/-- The value of a number. -/
inductive Numeric where
  | finite (v : DyadicValue)
  | infinite (negative : Bool)
  | notANumber
  deriving DecidableEq, Repr

namespace Numeric

/-- How two numbers compare, if both are numbers. -/
def compare? : Numeric → Numeric → Option Ordering
  | .finite a, .finite b => some (a.compare b)
  | .finite _, .infinite negative => some (if negative then .gt else .lt)
  | .infinite negative, .finite _ => some (if negative then .lt else .gt)
  | .infinite a, .infinite b => some (if a = b then .eq else if a then .lt else .gt)
  | .notANumber, _ => none
  | _, .notANumber => none

/-- Whether two numbers have the same value; what is not a number equals itself. -/
def same : Numeric → Numeric → Bool
  | .notANumber, .notANumber => true
  | a, b => a.compare? b == some .eq

end Numeric

namespace Binary64

def numeric : Binary64 → Numeric
  | .infinite negative => .infinite negative
  | .notANumber => .notANumber
  | x => match x.value? with
    | some v => .finite v
    | none => .notANumber

end Binary64

/-- The comparisons that a query can ask for. -/
inductive Comparison where
  | equal
  | less
  | atMost
  | greater
  | atLeast
  deriving DecidableEq, Repr

namespace Comparison

def symbol : Comparison → String
  | .equal => "=="
  | .less => "<"
  | .atMost => "<="
  | .greater => ">"
  | .atLeast => ">="

/-- Whether a comparison holds of two things that compare as `o`. -/
def holds : Comparison → Ordering → Bool
  | .equal, o => o == .eq
  | .less, o => o == .lt
  | .atMost, o => o != .gt
  | .greater, o => o == .gt
  | .atLeast, o => o != .lt

end Comparison

/-- Two values that have no order. -/
structure Incomparable where
  comparison : Comparison
  left : Json.Kind
  right : Json.Kind
  deriving DecidableEq, Repr

namespace Json

/-- The value of a number; `true` counts as one and `false` as zero. -/
def numeric? : Json → Option Numeric
  | .bool b => some (.finite (.ofInt (if b then 1 else 0)))
  | .int n => some (.finite (.ofInt n))
  | .float x => some x.numeric
  | _ => none

mutual

/-- Whether two values are the same: numbers by value, objects whatever the order of their
members. -/
def same : Json → Json → Bool
  | .null, .null => true
  | .text a, .text b => a == b
  | .list a, .list b => sameItems a b
  | .object a, .object b => a.length == b.length && sameMembers a b
  | .bool a, w => match w.numeric? with
    | some b => (Numeric.finite (.ofInt (if a then 1 else 0))).same b
    | none => false
  | .int a, w => match w.numeric? with
    | some b => (Numeric.finite (.ofInt a)).same b
    | none => false
  | .float a, w => match w.numeric? with
    | some b => a.numeric.same b
    | none => false
  | _, _ => false

def sameItems : List Json → List Json → Bool
  | [], [] => true
  | a :: as, b :: bs => same a b && sameItems as bs
  | _, _ => false

/-- Whether every member on the left is found on the right with an equal value. -/
def sameMembers : List (String × Json) → List (String × Json) → Bool
  | [], _ => true
  | (name, a) :: rest, members =>
    (match members.lookup name with
      | some b => same a b
      | none => false) && sameMembers rest members

end

mutual

/-- Whether a comparison holds between two values. None holds of what is not a number, unless lists
or objects hold it. -/
def compareBy (op : Comparison) : Json → Json → Except Incomparable Bool
  | .text a, .text b => .ok (op.holds (compare a b))
  | .list a, .list b =>
    if op = .equal then .ok (sameItems a b) else compareItemsBy op a b
  | v, w =>
    match v.numeric?, w.numeric? with
    | some a, some b =>
      .ok (match a.compare? b with
        | some o => op.holds o
        | none => false)
    | _, _ => if op = .equal then .ok (same v w) else .error ⟨op, v.kind, w.kind⟩

/-- Lists are compared at the first place where they differ. -/
def compareItemsBy (op : Comparison) : List Json → List Json → Except Incomparable Bool
  | [], [] => .ok (op.holds .eq)
  | [], _ :: _ => .ok (op.holds .lt)
  | _ :: _, [] => .ok (op.holds .gt)
  | a :: as, b :: bs =>
    if same a b then compareItemsBy op as bs else compareBy op a b

end

end Json

end LinkShelf
