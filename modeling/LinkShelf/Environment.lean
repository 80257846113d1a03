import LinkShelf.Failure
import LinkShelf.Storage.Path

/-!
The surroundings of a run: the variables it is started with, the present moment and the time zone.
-/

namespace LinkShelf

/-- The variables that a program is started with. -/
structure Environment where
  bindings : List (String × String)

namespace Environment

/-- The value of a variable that is set and not empty. -/
def value? (e : Environment) (name : String) : Option String :=
  match e.bindings.lookup name with
  | some "" => none
  | found => found

/-- The home directory. Slashes at its end do not count, and one of slashes only, or empty, is the
root. It may not lead to another home. -/
def home? (e : Environment) : Option Path := do
  let home := Text.dropEndWhile (· == '/') (← e.bindings.lookup "HOME").toList
  if home.head? = some '~' then none
  else some (if home.isEmpty then ⟨.root, []⟩ else .ofText (String.ofList home))

/-- The path with a leading tilde replaced by the home directory. -/
def expand (e : Environment) (p : Path) : Except Failure Path :=
  match p.expandHome? e.home? with
  | some expanded => .ok expanded
  | none => .error .noHome

/-- The path that a variable holds, if it is set and not empty. -/
def path? (e : Environment) (name : String) : Option Path := (e.value? name).map Path.ofText

/-- The directory in the home directory that is used where no other is named. -/
def ownDirectory (e : Environment) : Except Failure Path := e.expand (.ofParts ["~", ".tagmarks"])

end Environment

/-- What a run sees of the world besides files. -/
structure Surroundings where
  environment : Environment
  now : Instant
  zone : Zone

end LinkShelf
