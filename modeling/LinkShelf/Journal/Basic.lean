import LinkShelf.Environment
import LinkShelf.Journal.Event
import LinkShelf.Storage.Disk

/-!
The journal: which events are written down, and where. Events below the journal's level are left
out; the others go to every handler whose own level they reach. A handler writes to the console or
to the operations log of a store.
-/

namespace LinkShelf

/-- Where a handler writes. -/
inductive Outlet where
  | console
  | file (place : Location)
  /-- A log that was removed. -/
  | nowhere
  deriving DecidableEq, Repr

/-- A place to which events of some weight are written. Handlers are told apart by their numbers. -/
structure Handler where
  number : Nat
  outlet : Outlet
  least : Level
  deriving DecidableEq, Repr

/-- The handlers, the level below which events are left out, the number of handlers that were ever
made, and what was written: on the disk and on the console. -/
structure Journal where
  disk : Disk
  level : Level := .unset
  handlers : List Handler := []
  made : Nat := 0
  console : String := ""

namespace Journal

def fileName : String := "tagmarks-ops.log"

/-- The part of the program that all others belong to. -/
def ownSource : String := "tagmarks"

/-- Whether events of a source belong to the program. -/
def isOwn (source : String) : Bool :=
  source == ownSource || (ownSource ++ ".").toList.isPrefixOf source.toList

/-- Only errors and what weighs more are written. -/
def quiet (j : Journal) : Journal := { j with level := .error }

def hasConsole (j : Journal) : Bool := j.handlers.any fun h => h.outlet = .console

/-- A handler added to the others. -/
def attach (j : Journal) (outlet : Outlet) (least : Level) : Journal :=
  { j with handlers := j.handlers ++ [⟨j.made, outlet, least⟩], made := j.made + 1 }

/-- Everything is written, also to the console. -/
def debug (j : Journal) : Journal :=
  let j := { j with level := .debug }
  if j.hasConsole then j else j.attach .console .debug

/-- Events for information and above are written to the operations log of a directory, which is made
if it is missing; the number of the new handler. The log is opened by its path from the root. -/
def openFile (directory : Path) : Operation Journal Nat := do
  let place ← Operation.within (·.disk) (fun disk j => { j with disk }) do
    let d ← Operation.current
    let log := d.absolute (directory.child fileName)
    Disk.attempt (Disk.makeDirectories directory)
    Disk.attempt (Disk.append log .empty)
    return log.parts
  let j ← Operation.current
  Operation.change fun j =>
    let level := if j.level = .unset ∨ Level.info.value < j.level.value then .info else j.level
    { j.attach (.file place) .info with level }
  return j.made

/-- Handlers whose logs were removed write nowhere from then on, even where another file takes the
name. -/
def release (j : Journal) : Journal :=
  { j with handlers := j.handlers.map fun h =>
      match h.outlet with
      | .file place =>
        if (j.disk.files.file? place).isSome then h else { h with outlet := .nowhere }
      | _ => h }

/-- The journal without a handler. -/
def detach (number : Nat) (j : Journal) : Journal :=
  { j with handlers := j.handlers.filter fun h => h.number ≠ number }

/-- The least weight of the events of a source that are written. -/
def effectiveLevel (j : Journal) (source : String) : Level :=
  if isOwn source && j.level ≠ .unset then j.level else .warning

/-- The local date and the local time of day. -/
def dayAndClock (s : Surroundings) : String × String :=
  let date := match s.now.localDate? s.zone with
    | some d => d.text
    | none => String.ofList (s.now.fullText.toList.take 10)
  (date, (TimeOfDay.ofMicros (s.now.localTimeMicros s.zone)).clockText)

/-- The lines of an event in the operations log. -/
def fileText (s : Surroundings) (e : Event) : String :=
  let (day, clock) := dayAndClock s
  String.intercalate "\n"
    ((day ++ " " ++ clock ++ " " ++ e.level.name ++ " " ++ e.message) :: e.details) ++ "\n"

/-- The lines of an event on the console. -/
def consoleText (s : Surroundings) (e : Event) : String :=
  String.intercalate "\n"
    (((dayAndClock s).2 ++ " " ++ e.level.name ++ " " ++ e.source ++ ": " ++ e.message) ::
      e.details) ++ "\n"

/-- A text written on the console. -/
def tell (text : String) (j : Journal) : Journal := { j with console := j.console ++ text }

/-- An event written by a handler, if it weighs enough. A log that was removed stays so. -/
def handle (s : Surroundings) (e : Event) (j : Journal) (h : Handler) : Journal :=
  if e.level.value < h.least.value then j
  else
    match h.outlet with
    | .console => j.tell (consoleText s e)
    | .file place =>
      match j.disk.files.file? place with
      | some content =>
        let node := .file (content ++ (fileText s e).toUTF8)
        { j with disk := { j.disk with files := j.disk.files.put place node } }
      | none => j
    | .nowhere => j

/-- An event written wherever it belongs. Where there is no handler, warnings and what weighs more
are told on the console. -/
def write (s : Surroundings) (e : Event) (j : Journal) : Journal :=
  if e.level.value < (j.effectiveLevel e.source).value then j
  else
    match (if isOwn e.source then j.handlers else []) with
    | [] =>
      if e.level.value < Level.warning.value then j
      else j.tell (String.intercalate "\n" (e.message :: e.details) ++ "\n")
    | handlers => handlers.foldl (handle s e) j

end Journal

end LinkShelf
