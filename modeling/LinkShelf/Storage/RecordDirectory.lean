import LinkShelf.Json.Reader
import LinkShelf.Json.Writer
import LinkShelf.Storage.Digest
import LinkShelf.Storage.Disk
import LinkShelf.Storage.KeyedMap

/-!
Record directories: a keyed map whose values lie in a directory, each as JSON in a file of its own
that is named by the digest of its key. The directory is read once, when it is opened; after that a
change is made on the disk first and in memory only when that succeeded.
-/

namespace LinkShelf

/-- Values that are kept as JSON. -/
class Record (V : Type) (K : outParam Type) extends Keyed V K where
  keyText : K → String
  encode : V → Except Failure Json
  decode : Json → Except Failure V

/-- An open directory of records: the disk it lies on, its path, what its keys are called in
reports, and its entries. -/
structure RecordDirectory (V K : Type) where
  disk : Disk
  path : Path
  keyName : String
  entries : Entries K V

namespace RecordDirectory

/-- The part of the program that reports what happens to a directory. -/
def source : String := "tagmarks.json_dir_map"

def extension : String := ".json"

/-- The name of the file for a key. -/
def fileName (keyText : String) : String := Digest.ofText keyText ++ extension

/-- The names of the files that are made before they take the name of a record. -/
def temporaryName (n : Nat) : String :=
  ".tmp-" ++ String.ofList (Nat.toDigits 10 n) ++ extension

/-- Whether a file may be that of a record. Hidden ones are left over from interrupted writes. -/
def isRecordName (name : String) : Bool :=
  extension.toList.isSuffixOf name.toList && name.toList.head? != some '.'

/-- The names of the record files in a directory, in increasing order. -/
def recordNames (d : Disk) (p : Path) : List String :=
  ((d.names p).filter isRecordName).mergeSort fun a b => compare a b != .gt

variable {V K : Type} [Record V K]

/-- The text that a record file holds for a value. -/
def recordText (v : V) : Except Failure String := do
  let json ← Record.encode v
  if json.hasOversized then throw .oversizedInteger
  return json.write .indented ++ "\n"

/-- The value that a text holds. -/
def valueOfText (s : String) : Except Failure V :=
  match Json.read s with
  | .ok json => Record.decode json
  | .error fault => .error (.json fault)

/-- The value that the bytes of a record file hold. -/
def valueOfBytes (content : ByteArray) : Except Failure V :=
  match Text.decodeLines content with
  | .ok s => valueOfText s
  | .error fault => .error (.encoding fault)

/-- The value in a record file. -/
def readRecord (d : Disk) (file : Path) : Except Failure V :=
  match d.read file with
  | .ok content => valueOfBytes content
  | .error fault => .error (.file fault)

variable [DecidableEq K]

/-- The entries with those of some record files added. A file that holds no record is skipped and
stays where it is; a failure of another kind ends the reading. -/
def readAll (p : Path) : List String → Entries K V → Operation Disk (Entries K V)
  | [], entries => return entries
  | name :: rest, entries => do
    let file := p.child name
    match readRecord (V := V) (← Operation.current) file with
    | .ok v =>
      let key := Keyed.key v
      let keyText := Record.keyText V key
      if name ≠ fileName keyText then
        Operation.report
          ⟨.warning, source, keyText ++ " is stored under an unexpected file name: " ++ name, []⟩
      readAll p rest (entries.put key v)
    | .error fault =>
      if fault.isUnreadableRecord then
        Operation.report
          ⟨.warning, source, "Skipping unreadable " ++ file.text ++ ": " ++ fault.message, []⟩
        readAll p rest entries
      else throw fault

/-- The directory at a path, which is made if it is missing. -/
def load (p : Path) (keyName : String) : Operation Disk (RecordDirectory V K) := do
  Disk.attempt (Disk.makeDirectories p)
  let entries ← readAll p (recordNames (← Operation.current) p) []
  Operation.report ⟨.debug, source,
    "Loaded " ++ String.ofList (Nat.toDigits 10 entries.length) ++ " entries from " ++ p.text, []⟩
  return ⟨← Operation.current, p, keyName, entries⟩

/-- A change to the disk that a directory lies on. -/
def onDisk (f : Disk → Except FileFault α × Disk) : Operation (RecordDirectory V K) α :=
  Operation.within (·.disk) (fun disk r => { r with disk }) (Disk.attempt f)

/-- A value put under its own key. -/
def add (v : V) : Operation (RecordDirectory V K) Unit := do
  let r ← Operation.current
  let key := Keyed.key v
  let keyText := Record.keyText V key
  let content ← Operation.settled (recordText v)
  onDisk fun d => d.store r.path (fileName keyText) temporaryName content.toUTF8
  Operation.change fun r => { r with entries := r.entries.put key v }
  Operation.report ⟨.debug, source, "Stored " ++ r.keyName ++ " " ++ keyText, []⟩

/-- The value under a key taken away. -/
def remove (key : K) : Operation (RecordDirectory V K) (Option V) := do
  let r ← Operation.current
  match r.entries.value? key with
  | none => return none
  | some v =>
    let keyText := Record.keyText V key
    onDisk fun d => d.discard (r.path.child (fileName keyText))
    Operation.report ⟨.debug, source, "Removed " ++ r.keyName ++ " " ++ keyText, []⟩
    Operation.change fun r => { r with entries := r.entries.drop key }
    return some v

/-- The key of the entry that is equal to a value: the value's own key, or else the first. -/
def keyOfSame? (entries : Entries K V) (v : V) : Option K :=
  match entries.value? (Keyed.key v) with
  | some found =>
    if Keyed.same found v then some (Keyed.key v)
    else (entries.find? fun e => Keyed.same e.2 v).map (·.1)
  | none => (entries.find? fun e => Keyed.same e.2 v).map (·.1)

/-- An equal value taken away. -/
def removeSame (v : V) : Operation (RecordDirectory V K) (Option V) := do
  let r ← Operation.current
  match keyOfSame? r.entries v with
  | some key => remove key
  | none => return none

instance : KeyedMap (RecordDirectory V K) K V where
  value? r := r.entries.value?
  values r := r.entries.values
  add := add
  remove := remove
  removeSame := removeSame

end RecordDirectory

end LinkShelf
