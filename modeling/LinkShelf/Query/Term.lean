import LinkShelf.Failure

/-!
Query terms: an action and an argument with a colon between. A word without a colon is short for a
tag.
-/

namespace LinkShelf

/-- A term of a query. -/
structure Term where
  action : String
  argument : String
  deriving DecidableEq, Repr

namespace Term

open Text

/-- The term as it is written. -/
def text (t : Term) : String := t.action ++ ":" ++ t.argument

/-- The term that a word writes. The action is in lower case. -/
def ofWord (word : String) : Term :=
  match cutFirst (· == ':') word.toList with
  | some (action, argument) =>
    ⟨String.ofList (lower (strip action)), String.ofList (strip argument)⟩
  | none => ⟨"tagged", word⟩

/-- The terms of a query text. -/
def ofText (text : String) : Except QueryFault (List Term) :=
  match words text.toList with
  | .ok found => .ok (found.map fun w => ofWord (String.ofList w))
  | .error fault => .error ⟨.quoting text fault, none⟩

end Term

namespace Comparison

/-- The comparison that a sign stands for; no sign stands for equality. -/
def ofSign? : String → Option Comparison
  | "" => some .equal
  | "=" => some .equal
  | "==" => some .equal
  | "<" => some .less
  | "<=" => some .atMost
  | ">" => some .greater
  | ">=" => some .atLeast
  | _ => none

/-- The signs in the order in which they are looked for at the start of an argument. -/
def signs : List (List Char × Comparison) := [
  (['=', '='], .equal),
  (['='], .equal),
  (['<', '='], .atMost),
  (['<'], .less),
  (['>', '='], .atLeast),
  (['>'], .greater)]

/-- The text without a line end at its end. -/
def dropLineEnd (cs : List Char) : List Char :=
  if cs.getLast? = some '\n' then cs.dropLast else cs

/-- The comparison and the operand that an argument writes. An operand is not empty and lies in one
line; a line end after it does not count. -/
def split? (argument : List Char) : Option (Comparison × List Char) :=
  let line := dropLineEnd argument
  if line.isEmpty || line.contains '\n' then none
  else
    match signs.find? fun s => s.1.isPrefixOf line && s.1.length < line.length with
    | some (sign, op) => some (op, line.drop sign.length)
    | none => some (.equal, line)

end Comparison

end LinkShelf
