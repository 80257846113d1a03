import LinkShelf.Query.Stage

/-!
Actions: what the names in query terms mean. An action makes a stage of a term or refuses it. The
actions of a registry are found by name, and one that is registered later takes the place of an
earlier one.
-/

namespace LinkShelf

/-- How an action makes a stage of a term. Days are read from the present. -/
abbrev Action := Present → Term → Except Failure Stage

namespace Action

open Text

/-- A fault of a term. -/
def refuse {α : Type} (t : Term) (cause : QueryCause) : Except Failure α :=
  .error (.query ⟨cause, some t.text⟩)

/-- `is:tagged` and `is:untagged`. -/
def property : Action := fun _ t =>
  let argument := String.ofList (lower t.argument.toList)
  if argument = "untagged" then .ok (.keep .untagged)
  else if argument = "tagged" then .ok (.keep .anyTag)
  else refuse t (.unknownProperty argument)

/-- `tagged:recipes` -/
def tagged : Action := fun _ t =>
  match Tag.normalize? t.argument with
  | some name => .ok (.keep (.tag name))
  | none => refuse t (.badArgument t.action t.argument)

/-- `site:github.com` -/
def site : Action := fun _ t =>
  match lower (strip t.argument.toList) with
  | [] => refuse t (.badArgument t.action t.argument)
  | name => .ok (.keep (.site (String.ofList name)))

/-- The comparison and the operand of a term. -/
def comparisonOf (t : Term) : Except Failure (Comparison × String) :=
  match Comparison.split? t.argument.toList with
  | some (op, operand) => .ok (op, String.ofList operand)
  | none => refuse t (.badArgument t.action t.argument)

/-- The integer that a text of a term writes. -/
def integerOf (t : Term) (text : String) : Except Failure Int :=
  match Number.readInteger (strip text.toList) with
  | .ok n => .ok n
  | .error _ => refuse t (.notANumber t.action t.argument)

/-- `visit-count:>5` -/
def visitCount : Action := fun _ t => do
  let (op, operand) ← comparisonOf t
  let count ← integerOf t operand
  return .keep (.visits op count)

/-- `limit:10` -/
def limit : Action := fun _ t => do
  let n ← integerOf t t.argument
  if n < 0 then refuse t (.negativeLimit t.action t.argument)
  else return .limit n.toNat

/-- `by:title` -/
def order : Action := fun _ t =>
  let name := String.ofList (lower (strip t.argument.toList))
  match SortOrder.named? name with
  | some o => .ok (.sort o)
  | none => refuse t (.unknownOrder name)

/-- `created:>=2021-06-15` and the like. -/
def day (field : DateField) : Action := fun present t => do
  let (op, operand) ← comparisonOf t
  match DayText.read present operand with
  | .ok d => return .keep (.day field op d)
  | .error .noYesterday => .error (.day .noYesterday)
  | .error fault => refuse t (.badDay fault)

end Action

/-- Actions by name. -/
structure Registry where
  entries : List (String × Action)

namespace Registry

/-- The registry with an action under some names. -/
def register (names : List String) (action : Action) (r : Registry) : Registry :=
  ⟨names.map (·, action) ++ r.entries.filter fun e => !names.contains e.1⟩

def find? (r : Registry) (name : String) : Option Action := r.entries.lookup name

/-- The names of all actions, in order and each once. -/
def names (r : Registry) : List String := (TagSet.ofList (r.entries.map (·.1))).names

/-- The actions that are always there. -/
def builtin : Registry :=
  ⟨[("is", Action.property),
    ("tagged", Action.tagged),
    ("tag", Action.tagged),
    ("site", Action.site),
    ("visit-count", Action.visitCount),
    ("limit", Action.limit),
    ("by", Action.order),
    ("sort", Action.order),
    ("created", Action.day .created),
    ("last-visited", Action.day .lastVisited),
    ("visited", Action.day .lastVisited),
    ("last-modified", Action.day .modified),
    ("modified", Action.day .modified)]⟩

/-- The stage of a term. -/
def compile (r : Registry) (present : Present) (t : Term) : Except Failure Stage :=
  match r.find? t.action with
  | some action => action present t
  | none => Action.refuse t (.unknownAction t.action)

end Registry

end LinkShelf
