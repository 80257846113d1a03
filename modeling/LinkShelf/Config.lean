import LinkShelf.Environment
import LinkShelf.Operation
import LinkShelf.Storage.Disk
import LinkShelf.Toml.Writer

/-!
The configuration: a TOML file that says where the bookmarks are kept, and which query is asked
where none is given. Values that are only handed on are kept as the file has them.
-/

namespace LinkShelf

/-- The configuration in a directory. -/
structure Config where
  directory : Path
  version : Toml.Value
  created : Toml.Value
  /-- Where the bookmarks are kept; relative paths start in the directory. -/
  storePath : Path
  defaultQuery : Toml.Value
  /-- How many bookmarks a query gives at most; zero is no limit. -/
  limit : Toml.Value
  deriving Repr

namespace Config

def fileName : String := "tagmarks.toml"

def standardStorePath : Path := .ofParts ["bookmarks"]
def standardQuery : String := "by:most-recently-modified"
def standardLimit : Int := 50

/-- The configuration that a directory is given at first. -/
def standard (directory : Path) (now : Instant) : Config where
  directory
  version := .int configVersion
  created := .text now.fullText
  storePath := standardStorePath
  defaultQuery := .text standardQuery
  limit := .int standardLimit

def path (c : Config) : Path := c.directory.child fileName

/-- Where the bookmarks are kept. -/
def bookmarksPath (e : Environment) (c : Config) : Except Failure Path := do
  return c.directory.join (← e.expand c.storePath)

/-- A table of the file; a missing one is empty. -/
def sectionOf (document : Toml.Table) (name : String) : Except Failure Toml.Table :=
  match document.lookup name with
  | none => .ok []
  | some (.table members) => .ok members
  | some _ => .error .noSuchOperation

/-- Whether a floating-point number is greater than the version that is understood. -/
def isNewer (x : Binary64) : Bool :=
  match Json.compareBy .greater (.float x) (.int configVersion) with
  | .ok b => b
  | .error _ => false

/-- The version, unless it is greater than the one that is understood. -/
def checkedVersion (version : Toml.Value) : Except Failure Toml.Value :=
  let shown := String.ofList version.shown
  match version with
  | .bool _ => .ok version
  | .int n =>
    if n ≤ configVersion then .ok version
    else .error (if Number.isOversized n then .oversizedInteger else .newerConfig shown)
  | .float x => if isNewer x then .error (.newerConfig shown) else .ok version
  | v => .error (.kind (.incomparable .greater v.fullKindName "int"))

/-- The limit, if it is an integer and not below zero. -/
def checkedLimit (file : Path) (limit : Toml.Value) : Except Failure Toml.Value :=
  let accepted := match limit with
    | .bool _ => true
    | .int n => 0 ≤ n
    | _ => false
  if accepted then .ok limit
  else if limit.toJson.hasOversized then .error .oversizedInteger
  else .error (.badLimit file.text (String.ofList limit.shown))

/-- The path that a value writes. -/
def pathOf : Toml.Value → Except Failure Path
  | .text s => .ok (.ofText s)
  | v => .error (.kind (.notAPath v.kindName))

/-- The configuration that a document holds. -/
def ofDocument (directory : Path) (document : Toml.Table) : Except Failure Config := do
  let store ← sectionOf document "store"
  let version ← checkedVersion ((store.lookup "version").getD (.int 1))
  let query ← sectionOf document "query"
  let limit ←
    checkedLimit (directory.child fileName) ((query.lookup "limit").getD (.int standardLimit))
  let storePath ← pathOf ((store.lookup "path").getD (.text standardStorePath.text))
  return {
    directory
    version
    created := (store.lookup "created").getD (.text "")
    storePath
    defaultQuery := (query.lookup "default").getD (.text standardQuery)
    limit }

/-- The document that holds a configuration. -/
def toDocument (c : Config) : Toml.Table := [
  ("store", .table [
    ("version", c.version),
    ("created", c.created),
    ("path", .text c.storePath.text)]),
  ("query", .table [
    ("default", c.defaultQuery),
    ("limit", c.limit)])]

/-- The document that the bytes of a file hold. -/
def documentOfBytes (content : ByteArray) : Except Failure Toml.Table :=
  match Text.decode content with
  | .error fault => .error (.encoding fault)
  | .ok s =>
    match Toml.read s with
    | .ok document => .ok document
    | .error fault => .error (.toml fault)

/-- The configuration in a directory. -/
def load (d : Disk) (directory : Path) : Except Failure Config :=
  let file := directory.child fileName
  let content : Except FileFault ByteArray := do
    if ← d.present file then d.read file else throw (.missingConfig file.text)
  match content with
  | .ok content => do ofDocument directory (← documentOfBytes content)
  | .error fault => .error (.file fault)

/-- Why a configuration cannot be written. -/
def writeFailure : Toml.WriteFault → Failure
  | .nothing => .kind (.notWritable (Toml.Value.kindName .nothing))
  | .oversized => .oversizedInteger

/-- A configuration written to its directory, which is made if it is missing. Where a value cannot
be written, the file ends before it. -/
def save (c : Config) : Operation Disk Unit := do
  let draft := Toml.write c.toDocument
  Disk.attempt (Disk.makeDirectories c.directory)
  Disk.attempt (Disk.write c.path (String.ofList draft.text).toUTF8)
  match draft.fault? with
  | some fault => throw (writeFailure fault)
  | none => return ()

/-- The directory of the configuration. -/
def directoryOf (e : Environment) : Except Failure Path :=
  match e.path? "TAGMARKS_CONFIG_DIR" with
  | some p => e.expand p
  | none => e.ownDirectory

/-- The configuration in a directory, which is given one if it has none. -/
def loadOrCreate (s : Surroundings) (directory : Option Path) : Operation Disk Config := do
  let directory ← match directory with
    | some p => pure p
    | none => Operation.settled (directoryOf s.environment)
  let d ← Operation.current
  if ← Operation.settled ((d.present (directory.child fileName)).mapError .file) then
    Operation.settled (load d directory)
  else
    let c := standard directory s.now
    save c
    return c

/-- The directory in which the bookmarks are kept: the given one, that of the environment, or that
of the configuration. -/
def storePathFor (e : Environment) (c : Config) (given : Option Path) : Except Failure Path :=
  match given, e.path? "TAGMARKS_STORE_PATH" with
  | some p, _ => e.expand p
  | none, some p => e.expand p
  | none, none => c.bookmarksPath e

end Config

end LinkShelf
