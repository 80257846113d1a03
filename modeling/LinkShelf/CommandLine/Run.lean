import LinkShelf.CommandLine.Listing
import LinkShelf.CommandLine.Session
import LinkShelf.Query.Basic

/-!
Runs: every request as a command, and the run of a whole command line.
-/

namespace LinkShelf

open Text

namespace Command

/-- A value printed as JSON. -/
def sayJson (layout : Json.Layout) (v : Json) : Command Unit :=
  if v.hasOversized then stop (.crash .oversizedInteger) else say (v.write layout)

/-- A bookmark printed. -/
def sayBookmark (json : Bool) (b : Bookmark) : Command Unit := do
  if json then sayJson .line (← attempt b.toRecord) else say (← attempt b.details)

/-- Bookmarks printed in a list. -/
def sayList (json : Bool) (bookmarks : List Bookmark) : Command Unit := do
  if json then sayJson .indented (.list (← attempt (bookmarks.mapM Bookmark.toRecord)))
  else bookmarks.forM fun b => do say (← attempt b.listLine)

/-- The locator of a URL on the command line. -/
def locator (url : String) : Command Locator :=
  match Locator.of url with
  | .ok l => pure l
  | .error fault => refuse fault.message

/-- The names in words of the command line: what stands between commas, if it is not blank. -/
def tagNames (words : List String) : List String :=
  words.flatMap fun word =>
    ((pieces (· == ',') word.toList).filterMap fun piece => Tag.normalize? (String.ofList piece))

/-- The changes to a bookmark that is there. -/
def changesFor (f : GivenFields) (b : Bookmark) : Except Failure (List Change) := do
  let color ← match f.color with
    | some c => Color.ofJson (.text c)
    | none => .ok b.color
  return [
    .title (match f.title with
      | some t => .text t
      | none => b.title),
    .tags (if f.tags.isEmpty then b.tags else .names (TagSet.ofList (tagNames f.tags))),
    .color color,
    .notes (match f.notes with
      | some n => .text n
      | none => b.notes),
    .modified none]

/-- The bookmark that is to be stored: the one that is there with what is given, or a new one. -/
def bookmarkFor (url : String) (f : GivenFields) (existing : Option Bookmark) :
    Except Failure Bookmark := do
  match existing with
  | some b => b.replace (← changesFor f b)
  | none =>
    Bookmark.of (.text url) {
      title := .text (f.title.getD "")
      notes := .text (f.notes.getD "")
      tags := .list ((TagSet.ofList (tagNames f.tags)).names.map .text)
      color := Json.ofText? f.color }

def add (s : Surroundings) (i : Invocation) (url : String) (f : GivenFields) : Command Unit := do
  let store ← openStore s i.store
  let bookmark ← refusing Failure.isBadValue do
    let l ← Locator.ofJson (.text url)
    bookmarkFor url f (Store.get store l)
  sayBookmark i.json (← attempt (← onStore s store (Store.add s.now.wholeSecond bookmark)))

/-- What was found for a URL, or else the end of the run. -/
def found (url : String) : Option α → Command α
  | some a => pure a
  | none => refuse ("Not found: " ++ url)

def get (s : Surroundings) (i : Invocation) (url : String) : Command Unit := do
  let store ← openStore s i.store
  let b ← found url (Store.get store (← locator url))
  sayBookmark i.json b

def remove (s : Surroundings) (i : Invocation) (url : String) : Command Unit := do
  let store ← openStore s i.store
  let l ← locator url
  let b ← found url (← attempt (← onStore s store (Store.remove l)))
  say ("Removed " ++ b.url)

def move (s : Surroundings) (i : Invocation) (old new : String) : Command Unit := do
  let source ← locator old
  let target ← locator new
  let store ← openStore s i.store
  let b ← found old (Store.get store source)
  let moved ← attempt (b.replace [.locator target, .modified none])
  sayBookmark i.json
    (← attempt (← onStore s store (Store.replace s.now.wholeSecond b.locator moved)))

def visit (s : Surroundings) (i : Invocation) (url : String) : Command Unit := do
  let store ← openStore s i.store
  let l ← locator url
  let b ← found url (← attempt (← onStore s store (Store.visit s.now.wholeSecond l)))
  sayBookmark i.json b

/-- The text of the default query of a configuration. -/
def queryText : Toml.Value → Except Failure String
  | .text s => .ok s
  | v => if v.toJson.isBlank then .ok "" else .error .noSuchOperation

/-- The limit of a configuration as a number. -/
def limitNumber : Toml.Value → Int
  | .int n => n
  | .bool b => b.toNat
  | _ => 0

/-- The first `n` items, or all but the last `-n` when `n` is below zero; all when it is zero. -/
def limited (n : Int) (items : List α) : List α :=
  if n = 0 then items
  else if 0 < n then items.take n.toNat
  else items.take (items.length - n.natAbs)

/-- The query of some words, or that of the configuration where there are none. -/
def compile (s : Surroundings) (c : Config) (words : List String) : Command Query := do
  let text ←
    if words.isEmpty then attempt (queryText c.defaultQuery)
    else pure (String.intercalate " " words)
  let today ← attempt (localDate s.zone s.now)
  match Query.ofText .builtin ⟨today, s.now.localTimeMicros s.zone⟩ text with
  | .ok q => pure q
  | .error (.query fault) => refuse fault.message
  | .error f => stop (.crash f)

def find (s : Surroundings) (i : Invocation) (words : List String) (limit : Option Int) :
    Command Unit := do
  let config ← attempt (← onDisk s (Config.loadOrCreate s none))
  let query ← compile s config words
  let store ← openStore s i.store
  let results ← attempt (query.run s.zone (Store.all store))
  report s (query.matched results)
  sayList i.json (limited (limit.getD (limitNumber config.limit)) results)

def tags (s : Surroundings) (i : Invocation) : Command Unit := do
  let store ← openStore s i.store
  let names ← attempt (do Json.sorted (← Store.tags store))
  if i.json then sayJson .asciiLine (.list names)
  else names.forM fun name => say (String.ofList name.shown)

/-- The bookmarks that the bytes of a file list. -/
def bookmarksOf (content : ByteArray) : Except Failure (List Bookmark) :=
  match Text.decodeLines content with
  | .error fault => .error (.encoding fault)
  | .ok text =>
    match Json.read text with
    | .error fault => .error (.json fault)
    | .ok v => do (← v.items).mapM Bookmark.ofRecord

/-- Bookmarks added in order. -/
def addAll (now : Instant) (bookmarks : List Bookmark) :
    Operation (RecordDirectory Bookmark Locator) Unit :=
  bookmarks.forM fun b => do let _ ← Store.add now b

def importFile (s : Surroundings) (i : Invocation) (file : Path) : Command Unit := do
  let content ← attempt (← onDisk s do
    match (← Operation.current).read file with
    | .ok content => return content
    | .error fault => throw (.file fault))
  let bookmarks ← match bookmarksOf content with
    | .ok bookmarks => pure bookmarks
    | .error f =>
      if f.isUnreadableRecord then
        refuse ("Invalid import file " ++ file.text ++ ": " ++ f.message)
      else stop (.crash f)
  let store ← openStore s i.store
  attempt (← onStore s store (addAll s.now.wholeSecond bookmarks))
  say ("Imported " ++ String.ofList (Nat.toDigits 10 bookmarks.length) ++ " bookmarks")

/-- The command for a request. -/
def ofInvocation (s : Surroundings) (i : Invocation) : Command Unit :=
  match i.request with
  | .add url fields => add s i url fields
  | .get url => get s i url
  | .remove url => remove s i url
  | .move old new => move s i old new
  | .visit url => visit s i url
  | .find words limit => find s i words limit
  | .tags => tags s i
  | .importFile file => importFile s i file
  | .version => say "tagmarks 0.1.0"

end Command

/-- What a run leaves behind. -/
structure Finished where
  code : Nat
  printed : String
  told : String
  disk : Disk

namespace Session

def finish (code : Nat) (session : Session) : Finished :=
  ⟨code, session.printed, session.journal.console, session.journal.disk⟩

/-- The end of a run by a failure that was not foreseen: it is added to the crash log. -/
def crash (s : Surroundings) (context : String) (store : Option Path) (f : Failure)
    (session : Session) : Finished :=
  let (log, disk) := CrashLog.record s f context store session.journal.disk
  let lines := match log with
    | .ok file => ["Error: " ++ f.message, "Details logged to " ++ file.text]
    | .error fault => ["Error: " ++ f.message, CrashLog.lastLine fault]
  let journal := lines.foldl (fun j line => j.tell (Text.withoutControls line ++ "\n"))
    { session.journal with disk }
  finish 1 { session with journal }

/-- The run of a command line on a disk. -/
def run (s : Surroundings) (d : Disk) (args : List String) : Finished :=
  let start : Journal := { disk := d }
  match Invocation.read d (s.environment.path? "TAGMARKS_STORE_PATH") args with
  | .error fault => finish 2 ⟨start.tell ("Error: " ++ fault.message ++ "\n"), ""⟩
  | .ok i =>
    let loud := i.verbose || s.environment.value? "TAGMARKS_VERBOSE" = some "1"
    let journal := if loud then start.debug else start.quiet
    match (Command.ofInvocation s i).run ⟨journal, ""⟩ with
    | (.ok (), session) => finish 0 session
    | (.error (.exit code), session) => finish code session
    | (.error (.crash f), session) =>
      crash s (String.intercalate " " ("tagmarks" :: args)) i.store f session

end Session

end LinkShelf
