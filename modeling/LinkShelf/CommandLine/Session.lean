import LinkShelf.CommandLine.Request
import LinkShelf.Config
import LinkShelf.CrashLog
import LinkShelf.Journal.Basic
import LinkShelf.Store
import LinkShelf.Text.ControlSequence

/-!
Sessions: the state of one run of the program, and what its requests are made of. A run ends early
when it is refused with a message or when something fails that was not foreseen.
-/

namespace LinkShelf

/-- What a run has done so far: the journal with the disk and the console, and what was printed. -/
structure Session where
  journal : Journal
  printed : String := ""

/-- Why a run ends early. -/
inductive Stop where
  /-- The run ends with an exit code; its message was told. -/
  | exit (code : Nat)
  | crash (f : Failure)

/-- A part of a run. -/
abbrev Command (α : Type) := ExceptT Stop (StateM Session) α

namespace Command

def stop (s : Stop) : Command α := fun session => (.error s, session)

/-- A line printed, without control sequences. -/
def say (line : String) : Command Unit := fun session =>
  (.ok (), { session with printed := session.printed ++ Text.withoutControls line ++ "\n" })

/-- A line told on the console, without control sequences. -/
def tell (line : String) : Command Unit := fun session =>
  (.ok (), { session with journal := session.journal.tell (Text.withoutControls line ++ "\n") })

/-- The end of a run that cannot do what was asked. -/
def refuse (message : String) : Command α := do
  tell ("Error: " ++ message)
  stop (.exit 1)

/-- An outcome whose failure is not foreseen. -/
def attempt : Except Failure α → Command α
  | .ok a => pure a
  | .error f => stop (.crash f)

/-- An outcome whose failure, where it is of some kind, refuses the request. -/
def refusing (foreseen : Failure → Bool) (result : Except Failure α) : Command α :=
  match result with
  | .ok a => pure a
  | .error f => if foreseen f then refuse f.message else stop (.crash f)

/-- An operation on the disk. -/
def onDisk (s : Surroundings) (op : Operation Disk α) : Command (Except Failure α) :=
  fun session =>
    let (result, after) := op.execute session.journal.disk
    let journal := { session.journal with disk := after.state }
    (.ok result, { session with journal := after.events.foldl (fun j e => j.write s e) journal })

/-- An operation on the journal, which reports nothing. -/
def onJournal (op : Operation Journal α) : Command (Except Failure α) := fun session =>
  let (result, after) := op.execute session.journal
  (.ok result, { session with journal := after.state })

/-- An operation on an open store, which lies on the disk as it is now. -/
def onStore (s : Surroundings) (store : RecordDirectory Bookmark Locator)
    (op : Operation (RecordDirectory Bookmark Locator) α) : Command (Except Failure α) :=
  fun session =>
    let (result, after) := op.execute { store with disk := session.journal.disk }
    let journal := { session.journal with disk := after.state.disk }
    (.ok result, { session with journal := after.events.foldl (fun j e => j.write s e) journal })

/-- An event that is reported. -/
def report (s : Surroundings) (e : Event) : Command Unit := fun session =>
  (.ok (), { session with journal := session.journal.write s e })

/-- The failures for which a store cannot be opened. -/
def isUnopened (f : Failure) : Bool := f.isFileFault || f.isBadValue

/-- The store of the configuration or of the command line, with its operations log. -/
def openStore (s : Surroundings) (given : Option Path) :
    Command (RecordDirectory Bookmark Locator) := do
  let config ← refusing isUnopened (← onDisk s (Config.loadOrCreate s none))
  let path ← refusing isUnopened (config.storePathFor s.environment given)
  refusing isUnopened (← onDisk s (Disk.attempt (Disk.makeDirectories path)))
  let _ ← refusing isUnopened (← onJournal (Journal.openFile path))
  refusing isUnopened (← onDisk s (Store.load (fun _ => s.now.wholeSecond) path))

end Command

end LinkShelf
