/-!
Events that are reported while the program works, and how weighty they are.
-/

namespace LinkShelf

/-- How weighty an event is; greater numbers weigh more. -/
structure Level where
  value : Int
  deriving DecidableEq, Repr

namespace Level

def unset : Level := ⟨0⟩
def debug : Level := ⟨10⟩
def info : Level := ⟨20⟩
def warning : Level := ⟨30⟩
def error : Level := ⟨40⟩
def critical : Level := ⟨50⟩

/-- The levels with names of their own. -/
def named : List (String × Level) := [
  ("NOTSET", unset),
  ("DEBUG", debug),
  ("INFO", info),
  ("WARNING", warning),
  ("ERROR", error),
  ("CRITICAL", critical)]

def name (l : Level) : String :=
  match named.find? fun n => n.2 = l with
  | some n => n.1
  | none =>
    "Level " ++ (if l.value < 0 then "-" else "") ++
      String.ofList (Nat.toDigits 10 l.value.natAbs)

end Level

/-- Something that is reported: its weight, the part of the program it comes from, what is said, and
lines that are added where it is written down. -/
structure Event where
  level : Level
  source : String
  message : String
  details : List String := []
  deriving DecidableEq, Repr

end LinkShelf
