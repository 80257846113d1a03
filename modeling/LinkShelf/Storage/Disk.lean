import LinkShelf.Operation
import LinkShelf.Storage.FileSystem

/-!
Disks: a file system, the directory that paths start from, and a device that may refuse any step.
A step is taken as a whole or not at all.
-/

namespace LinkShelf

/-- A step that changes what is under one name. -/
inductive FileStep where
  /-- An empty file is made. -/
  | create (path : Path)
  /-- Bytes are added to a file. -/
  | extend (path : Path) (content : ByteArray)
  /-- A file takes another name, and the place of what had that name. -/
  | move (source target : Path)
  | unlink (path : Path)

/-- A file system as a program sees it. -/
structure Disk where
  files : FileSystem
  /-- Where relative paths start. -/
  workingDirectory : Location
  /-- The reason for which the device refuses a step, if it does. -/
  refusal? : FileStep → Option String

namespace Disk

/-- The most bytes that a path may have. -/
def maxPathBytes : Nat := 4095

/-- The location to which a path leads. All that it passes has to be a directory. -/
def locate (d : Disk) (p : Path) : Except FileFault Location :=
  if p.text.toList.contains '\x00' then .error .pathWithEnd
  else if maxPathBytes < p.text.utf8ByteSize then .error (.nameTooLong p.text)
  else d.files.walk p.text (if p.start = .here then d.workingDirectory else []) p.parts

/-- What is at a path, if anything. A path that leads nowhere has nothing, unless it is too long. -/
def look (d : Disk) (p : Path) : Except FileFault (Option Node) :=
  match d.locate p with
  | .ok l => .ok (d.files.node? l)
  | .error (.nameTooLong path) => .error (.nameTooLong path)
  | .error _ => .ok none

def present (d : Disk) (p : Path) : Except FileFault Bool := (d.look p).map Option.isSome

def isDirectory (d : Disk) (p : Path) : Except FileFault Bool :=
  (d.look p).map (· = some .directory)

/-- The path from the root, without what two full stops take back. -/
def absolute (d : Disk) (p : Path) : Path where
  start := if p.start = .doubleRoot then .doubleRoot else .root
  parts :=
    ((if p.start = .here then d.workingDirectory else []) ++ p.parts).foldl
      (fun l name => if name = ".." then l.dropLast else l ++ [name]) []

/-- The bytes of a file. -/
def read (d : Disk) (p : Path) : Except FileFault ByteArray := do
  d.files.read (← d.locate p) p.text

/-- The names in a directory. -/
def names (d : Disk) (p : Path) : List String :=
  match d.locate p with
  | .ok l => d.files.names l
  | .error _ => []

/-- The disk with other files, if the change to them is well. -/
def settle (d : Disk) : Except FileFault FileSystem → Except FileFault Unit × Disk
  | .ok files => (.ok (), { d with files })
  | .error fault => (.error fault, d)

/-- The file system after a step, where no device refuses it. -/
def filesAfter (d : Disk) : FileStep → Except FileFault FileSystem
  | .create p => do d.files.write (← d.locate p) .empty p.text
  | .extend p content => do d.files.append (← d.locate p) content p.text
  | .move source target => do d.files.move (← d.locate source) (← d.locate target) target.text
  | .unlink p => do d.files.remove (← d.locate p) p.text

/-- One step. -/
def take (s : FileStep) (d : Disk) : Except FileFault Unit × Disk :=
  match d.refusal? s with
  | some reason => (.error (.device reason), d)
  | none => d.settle (d.filesAfter s)

/-- Some steps in order, up to the first that fails. -/
def takeAll : List FileStep → Disk → Except FileFault Unit × Disk
  | [], d => (.ok (), d)
  | s :: rest, d =>
    match d.take s with
    | (.ok (), d) => takeAll rest d
    | (.error fault, d) => (.error fault, d)

/-- A directory made at a path, unless it is there. -/
def makeDirectory (p : Path) (d : Disk) : Except FileFault Unit × Disk :=
  match d.settle (do d.files.makeDirectory (← d.locate p) p.text) with
  | (.ok (), d) => (.ok (), d)
  | (.error fault, d) =>
    match d.isDirectory p with
    | .ok true => (.ok (), d)
    | .ok false => (.error fault, d)
    | .error fault => (.error fault, d)

/-- The directories made that the first `n` names of a path lead through. A directory is tried
first, and the way to it only where that is missing. -/
def makeWay (p : Path) : Nat → Disk → Except FileFault Unit × Disk
  | 0, d => d.makeDirectory (p.upTo 0)
  | n + 1, d =>
    match d.makeDirectory (p.upTo (n + 1)) with
    | (.error (.missing _), d) =>
      match makeWay p n d with
      | (.ok (), d) => d.makeDirectory (p.upTo (n + 1))
      | failed => failed
    | result => result

/-- The directories on the way to a path made where they are missing. -/
def makeDirectories (p : Path) : Disk → Except FileFault Unit × Disk := makeWay p p.parts.length

/-- A file with some bytes in place of what it held. -/
def write (p : Path) (content : ByteArray) (d : Disk) : Except FileFault Unit × Disk :=
  d.settle (do d.files.write (← d.locate p) content p.text)

/-- Bytes added to a file, which is made if it is missing. -/
def append (p : Path) (content : ByteArray) (d : Disk) : Except FileFault Unit × Disk :=
  d.settle (do d.files.append (← d.locate p) content p.text)

/-- The steps that put a file under a name: another file is made and filled, and then takes the
name. -/
def replacing (temporary target : Path) (content : ByteArray) : List FileStep :=
  [.create temporary, .extend temporary content, .move temporary target]

/-- A name in a directory that nothing has, by the numbers from `n`. -/
def freeName (taken : List String) (name : Nat → String) : Nat → Nat → String
  | 0, n => name n
  | fuel + 1, n => if taken.contains (name n) then freeName taken name fuel (n + 1) else name n

/-- A file put under a name in a directory by way of a temporary one. If a step fails, the temporary
file is removed again. -/
def store (directory : Path) (name : String) (temporaryName : Nat → String) (content : ByteArray)
    (d : Disk) : Except FileFault Unit × Disk :=
  let taken := d.names directory
  let temporary := directory.child (freeName taken temporaryName taken.length 0)
  match d.takeAll (replacing temporary (directory.child name) content) with
  | (.ok (), d) => (.ok (), d)
  | (.error fault, d) => (.error fault, (d.take (.unlink temporary)).2)

/-- A file removed, if it is there. -/
def discard (p : Path) (d : Disk) : Except FileFault Unit × Disk :=
  match d.take (.unlink p) with
  | (.error (.missing _), d) => (.ok (), d)
  | result => result

/-- What is done to a disk as an operation. -/
def attempt (f : Disk → Except FileFault α × Disk) : Operation Disk α :=
  Operation.stepped fun d =>
    match f d with
    | (.ok a, d) => (.ok a, d)
    | (.error fault, d) => (.error (.file fault), d)

end Disk

end LinkShelf
