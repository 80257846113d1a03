import LinkShelf.Environment
import LinkShelf.Storage.Disk

/-!
The crash log: failures that were not foreseen, each with the time and what was running.
-/

namespace LinkShelf.CrashLog

def fileName : String := "tagmarks-errors.log"

/-- The file of the log: in the given directory, that of the environment, or the user's own. -/
def path (e : Environment) (directory : Option Path) : Except Failure Path := do
  let directory ← match directory, e.path? "TAGMARKS_STORE_PATH" with
    | some p, _ => .ok p
    | none, some p => .ok p
    | none, none => e.ownDirectory
  return (← e.expand directory).child fileName

/-- The name of a failure where its origin is given as well. -/
def originName (f : Failure) : String :=
  match f with
  | .toml (.malformed _ _) => "tomllib." ++ f.name
  | _ => f.name

/-- The last line of an entry: the name of the failure and what it says. -/
def lastLine (f : Failure) : String :=
  if f.message.isEmpty then originName f else originName f ++ ": " ++ f.message

/-- An entry: a line of equals signs, the time and what was running, and the failure. -/
def entry (now : Instant) (context : String) (f : Failure) : String :=
  "\n" ++ String.ofList (List.replicate 60 '=') ++ "\n[" ++ now.fullText ++ "]" ++
    (if context.isEmpty then "" else " " ++ context) ++
    "\nTraceback (most recent call last):\n" ++ lastLine f ++ "\n"

/-- An entry added to a file, which is made if it is missing. A file that cannot be written is left:
the log must not hide the failure that it reports. Only a path that is none at all is a failure. -/
def append (file : Path) (entry : String) (d : Disk) : Except Failure Unit × Disk :=
  let (made, d) := d.makeDirectories file.parent
  match made with
  | .error .pathWithEnd => (.error (.file .pathWithEnd), d)
  | .error _ => (.ok (), d)
  | .ok () => (.ok (), (d.append file entry.toUTF8).2)

/-- A failure added to the log; the file of the log. -/
def record (s : Surroundings) (f : Failure) (context : String) (directory : Option Path)
    (d : Disk) : Except Failure Path × Disk :=
  match path s.environment directory with
  | .error fault => (.error fault, d)
  | .ok file =>
    let (written, d) := append file (entry s.now context f) d
    (written.map fun () => file, d)

end LinkShelf.CrashLog
