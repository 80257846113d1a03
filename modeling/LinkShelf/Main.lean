import LinkShelf.CommandLine.Run
import Std.Time.Format

/-!
The program: the files that a run may need are read, the run is made on them, and what it changed is
written back.
-/

namespace LinkShelf.Program

/-- The path of a location. -/
def pathText (l : Location) : String := "/" ++ String.intercalate "/" l

/-- What a location holds is added to the file system, if it holds anything. -/
def observeNode (files : FileSystem) (l : Location) : IO FileSystem := do
  let place := (← IO.currentDir) / pathText l
  if ← place.isDir then return files.put l .directory
  if ← place.pathExists then return files.put l (.file (← IO.FS.readBinFile place))
  return files

/-- What a path holds, all that is passed on the way to it and the names in it are added to a
disk. -/
def observe (d : Disk) (p : Path) : IO Disk := do
  let mut files := d.files
  for n in List.range (p.parts.length + 1) do
    let place := (d.absolute (p.upTo n)).parts
    for m in List.range place.length do
      files ← observeNode files (place.take (m + 1))
  let l := (d.absolute p).parts
  if files.isDirectory l then
    for entry in ← ((← IO.currentDir) / pathText l).readDir do
      files ← observeNode files (l ++ [entry.fileName])
  return { d with files }

/-- The disk as far as a run can see it. -/
def observeAll (e : Environment) (args : List String) : IO Disk := do
  let here := Path.ofText (← IO.currentDir).toString
  let mut d : Disk := ⟨.empty, here.parts, fun _ => none⟩
  d ← observe d (.ofParts [])
  for word in args do d ← observe d (Path.ofText word)
  let given := (Invocation.read d (e.path? "TAGMARKS_STORE_PATH") args).toOption.bind (·.store)
  if let .ok directory := Config.directoryOf e then
    d ← observe d directory
    let config := match Config.load d directory with
      | .ok c => c
      | .error _ => Config.standard directory ⟨0, by decide⟩
    if let .ok p := config.storePathFor e given then d ← observe d p
  if let .ok log := CrashLog.path e given then d ← observe d log.parent
  return d

/-- What a run changed is written: new directories first, then files, each by way of a file of
another name; then files are removed that are gone. -/
def settle (before after : FileSystem) : IO Unit := do
  for (l, node) in after.entries do
    if node = .directory ∧ before.node? l ≠ some node then IO.FS.createDirAll (pathText l)
  for (l, node) in after.entries do
    if let .file content := node then
      if before.node? l ≠ some node then
        let hidden := pathText (l.dropLast ++ ["." ++ l.getLastD "" ++ ".part"])
        IO.FS.writeBinFile hidden content
        IO.FS.rename hidden (pathText l)
  for (l, _) in before.entries do
    if (after.node? l).isNone then IO.FS.removeFile (pathText l)

/-- The variables that a run looks at. -/
def readEnvironment : IO Environment := do
  let mut found := []
  for name in
      ["HOME", "TAGMARKS_CONFIG_DIR", "TAGMARKS_STORE_PATH", "TAGMARKS_VERBOSE"] do
    if let some v ← IO.getEnv name then found := found ++ [(name, v)]
  return ⟨found⟩

/-- The present moment, and the time zone as it is now. -/
def readClock : IO (Instant × Zone) := do
  let stamp ← Std.Time.Timestamp.now
  let micros : Int := stamp.toNanosecondsSinceUnixEpoch.val / 1000
  let rules ← Std.Time.Database.defaultGetLocalZoneRules
  let seconds : Int := (rules.timezoneAt stamp).offset.second.val
  let now := (Instant.ofMicros? (Instant.epochMicros + micros)).getD ⟨0, by decide⟩
  return (now, ⟨seconds / 60⟩)

end LinkShelf.Program

open LinkShelf in
/-- The program with its command line. -/
def main (args : List String) : IO UInt32 := do
  let environment ← Program.readEnvironment
  let (now, zone) ← Program.readClock
  let d ← Program.observeAll environment args
  let done := Session.run ⟨environment, now, zone⟩ d args
  Program.settle d.files done.disk.files
  IO.print done.printed
  IO.eprint done.told
  return UInt32.ofNat done.code
