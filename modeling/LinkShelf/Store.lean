import LinkShelf.Bookmark.Record
import LinkShelf.Storage.RecordDirectory

/-!
The store: the bookmarks in a keyed map, by their locators. It looks after the times at which they
were created and modified. Every operation is given the present moment.
-/

namespace LinkShelf

instance : Record Bookmark Locator where
  key b := b.locator
  same a b := a.same b
  keyText l := l.url
  encode := Bookmark.toRecord
  decode := Bookmark.ofRecord

namespace Store

/-- The part of the program that reports what happens to bookmarks. -/
def source : String := "tagmarks.bookmark_store"

def reportInfo (message : String) : Operation σ Unit :=
  Operation.report ⟨.info, source, message, []⟩

variable {σ : Type} [KeyedMap σ Locator Bookmark]

/-- The bookmark of a locator. -/
def get (s : σ) (l : Locator) : Option Bookmark := KeyedMap.value? s l

/-- All bookmarks, in the order of the map. -/
def all (s : σ) : List Bookmark := KeyedMap.values s

def size (s : σ) : Nat := (all s).length

def contains (s : σ) (l : Locator) : Bool := (get s l).isSome

/-- The values with one more, unless it is there or cannot be told apart from others. -/
def insertTag (found : List Json) (tag : Json) : Except Failure (List Json) :=
  match tag with
  | .list _ | .object _ => .error (.kind (.notHashable tag.kind.name))
  | tag => .ok (if found.any fun other => tag.same other then found else found ++ [tag])

/-- The tags that bookmarks have, each once. -/
def tagsOf (bookmarks : List Bookmark) : Except Failure (List Json) :=
  bookmarks.foldlM (fun found b => do (← b.tags.items).foldlM insertTag found) []

/-- The tags of all bookmarks, each once. -/
def tags (s : σ) : Except Failure (List Json) := tagsOf (all s)

/-- What a bookmark lacks when it is added: the time of its creation, which is that of the bookmark
in its place or else now, and that of its modification, which is now. -/
def missingTimes (b : Bookmark) (existing : Option Bookmark) (now : Instant) : List Change :=
  (match b.created with
    | some _ => []
    | none => [.created (some ((existing.bind (·.created)).getD now))]) ++
  (match b.modified with
    | some _ => []
    | none => [.modified (some now)])

/-- The bookmark with some changes; without any it is not looked at. -/
def changed (b : Bookmark) (changes : List Change) : Except Failure Bookmark :=
  if changes.isEmpty then .ok b else b.replace changes

/-- A bookmark put into the store, in the place of the one with its locator. Times that it lacks are
filled in, others are kept. The bookmark is given as it was stored. -/
def add (now : Instant) (b : Bookmark) : Operation σ Bookmark := do
  let existing := get (← Operation.current) b.locator
  let stored ← Operation.settled (changed b (missingTimes b existing now))
  KeyedMap.add stored
  reportInfo ((if existing.isSome then "Updated " else "Added ") ++ stored.url)
  return stored

/-- What was removed, which is reported. -/
def reportRemoved (removed : Option Bookmark) : Operation σ (Option Bookmark) := do
  if let some b := removed then reportInfo ("Removed " ++ b.url)
  return removed

/-- The bookmark of a locator removed. -/
def remove (l : Locator) : Operation σ (Option Bookmark) := do
  reportRemoved (← KeyedMap.remove l)

/-- A bookmark removed that is equal to the given one. -/
def removeSame (b : Bookmark) : Operation σ (Option Bookmark) := do
  reportRemoved (← KeyedMap.removeSame b)

/-- A bookmark put into the store, and the one of another locator removed after that, so that a
failure cannot lose both. -/
def replace (now : Instant) (old : Locator) (b : Bookmark) : Operation σ Bookmark := do
  let stored ← add now b
  if b.locator ≠ old then
    let _ ← KeyedMap.remove (σ := σ) old
    reportInfo ("Replaced " ++ old.url ++ " with " ++ b.url)
  return stored

/-- One more visit to the bookmark of a locator. The clock is looked at for the visit and once more
when the bookmark is stored. -/
def visitAt (visited stored : Instant) (l : Locator) : Operation σ (Option Bookmark) := do
  match get (← Operation.current) l with
  | none => return none
  | some b => return some (← add stored (← Operation.settled (b.visited visited)))

/-- One more visit while the clock stands still. -/
def visit (now : Instant) (l : Locator) : Operation σ (Option Bookmark) := visitAt now now l

/-- The bookmark with the times that it lacks set to a moment. -/
def completed (now : Instant) (b : Bookmark) : Except Failure Bookmark :=
  b.replace [.created (some (b.created.getD now)), .modified (some (b.modified.getD now))]

/-- Times filled in where bookmarks lack them; the number of those that were written. One that
cannot be written is reported and stays as it is. -/
def completeAll (clock : Nat → Instant) : List Bookmark → Nat → Operation σ Nat
  | [], _ => return 0
  | b :: rest, turn => do
    if b.created.isSome && b.modified.isSome then completeAll clock rest turn
    else
      let updated ← Operation.settled (completed (clock turn) b)
      match ← Operation.outcome (add (clock turn) updated) with
      | .ok _ => return (← completeAll clock rest (turn + 1)) + 1
      | .error fault =>
        if fault.isFileFault then
          Operation.report ⟨.error, source,
            "Unable to update bookmark structure for " ++ b.url ++ ": " ++ fault.message,
            [fault.name ++ ": " ++ fault.message]⟩
          completeAll clock rest (turn + 1)
        else throw fault

/-- Bookmarks that were stored without times are given them, each the time at its turn. -/
def migrate (clock : Nat → Instant) : Operation σ Unit := do
  let migrated ← completeAll clock (all (← Operation.current)) 0
  if migrated ≠ 0 then
    reportInfo ("Backfilled timestamps on " ++ String.ofList (Nat.toDigits 10 migrated) ++
      " bookmarks")

/-- The store in the directory at a path, which is made if it is missing. -/
def load (clock : Nat → Instant) (p : Path) :
    Operation Disk (RecordDirectory Bookmark Locator) := do
  let directory ← RecordDirectory.load p "url"
  let (migrated, after) := (migrate clock).execute directory
  Operation.change fun _ => after.state.disk
  after.events.forM Operation.report
  Operation.settled migrated
  return after.state

end Store

end LinkShelf
