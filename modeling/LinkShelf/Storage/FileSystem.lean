import LinkShelf.Failure
import LinkShelf.Storage.Path

/-!
A file system: directories and files with their bytes. Operations are functions from one file system
to the next; main statements say what a location holds after each of them.
-/

namespace LinkShelf

/-- The names on the way from the root. -/
abbrev Location := List String

/-- What a location holds. -/
inductive Node where
  | directory
  | file (content : ByteArray)

instance : DecidableEq Node
  | .directory, .directory => isTrue rfl
  | .directory, .file _ => isFalse nofun
  | .file _, .directory => isFalse nofun
  | .file a, .file b =>
    match ByteArray.instDecidableEq a b with
    | isTrue h => isTrue (congrArg Node.file h)
    | isFalse h => isFalse fun same => h (Node.file.inj same)

/-- The nodes of a file system other than the root, by location. -/
structure FileSystem where
  entries : List (Location × Node)

namespace FileSystem

def empty : FileSystem := ⟨[]⟩

/-- What a location holds, if anything. -/
def node? (fs : FileSystem) (l : Location) : Option Node :=
  if l = [] then some .directory else fs.entries.lookup l

def isDirectory (fs : FileSystem) (l : Location) : Bool := fs.node? l = some .directory

/-- The bytes of a file. -/
def file? (fs : FileSystem) (l : Location) : Option ByteArray :=
  match fs.node? l with
  | some (.file content) => some content
  | _ => none

/-- The file system with a node put at a location. -/
def put (fs : FileSystem) (l : Location) (n : Node) : FileSystem :=
  if fs.entries.any fun e => e.1 = l then
    ⟨fs.entries.map fun e => if e.1 = l then (l, n) else e⟩
  else ⟨fs.entries ++ [(l, n)]⟩

/-- The file system with nothing at a location. -/
def drop (fs : FileSystem) (l : Location) : FileSystem :=
  ⟨fs.entries.filter fun e => e.1 ≠ l⟩

/-- The file system with nothing at a location or below it. -/
def dropTree (fs : FileSystem) (l : Location) : FileSystem :=
  ⟨fs.entries.filter fun e => !l.isPrefixOf e.1⟩

/-- The names in a directory. -/
def names (fs : FileSystem) (l : Location) : List String :=
  fs.entries.filterMap fun e =>
    match e.1.getLast? with
    | some name => if e.1.dropLast = l then some name else none
    | none => none

/-- The nodes below a directory, with their names from there. -/
def below (fs : FileSystem) (l : Location) : List (Location × Node) :=
  fs.entries.filterMap fun e =>
    if l.isPrefixOf e.1 && e.1 != l then some (e.1.drop l.length, e.2) else none

/-- The most bytes that a name may have. -/
def maxNameBytes : Nat := 255

/-- The location to which names lead from another one. Two full stops lead to the directory above.
All that is passed on the way has to be a directory; at the end there need not be anything. -/
def walk (fs : FileSystem) (path : String) : Location → List String → Except FileFault Location
  | l, [] => .ok l
  | l, name :: rest =>
    match fs.node? l with
    | none => .error (.missing path)
    | some (.file _) => .error (.notDirectory path)
    | some .directory =>
      if name = ".." then walk fs path l.dropLast rest
      else if maxNameBytes < name.utf8ByteSize then .error (.nameTooLong path)
      else walk fs path (l ++ [name]) rest

/-- The file system with a directory at a location where nothing was. -/
def makeDirectory (fs : FileSystem) (l : Location) (path : String) : Except FileFault FileSystem :=
  match fs.node? l with
  | some _ => .error (.present path)
  | none => .ok (fs.put l .directory)

/-- The bytes of the file at a location. -/
def read (fs : FileSystem) (l : Location) (path : String) : Except FileFault ByteArray :=
  match fs.node? l with
  | some (.file content) => .ok content
  | some .directory => .error (.isDirectory path)
  | none => .error (.missing path)

/-- The file system with a file of some bytes at a location. -/
def write (fs : FileSystem) (l : Location) (content : ByteArray) (path : String) :
    Except FileFault FileSystem :=
  if fs.isDirectory l then .error (.isDirectory path) else .ok (fs.put l (.file content))

/-- The file system with some bytes added to the file at a location. -/
def append (fs : FileSystem) (l : Location) (content : ByteArray) (path : String) :
    Except FileFault FileSystem :=
  fs.write l ((fs.file? l).getD .empty ++ content) path

/-- The file system with the file at one location moved to another, over what is there. -/
def move (fs : FileSystem) (source target : Location) (path : String) :
    Except FileFault FileSystem :=
  match fs.file? source with
  | none => .error (.missing path)
  | some content =>
    if fs.isDirectory target then .error (.isDirectory path)
    else .ok ((fs.drop source).put target (.file content))

/-- The file system without the file at a location. -/
def remove (fs : FileSystem) (l : Location) (path : String) : Except FileFault FileSystem :=
  match fs.node? l with
  | some .directory => .error (.isDirectory path)
  | some (.file _) => .ok (fs.drop l)
  | none => .error (.missing path)

end FileSystem

namespace Text

/-- The number of bytes of the character that a byte begins, if it begins one. -/
def characterLength? (b : UInt8) : Option Nat :=
  if b < 0x80 then some 1
  else if 0xC2 ≤ b ∧ b < 0xE0 then some 2
  else if 0xE0 ≤ b ∧ b < 0xF0 then some 3
  else if 0xF0 ≤ b ∧ b < 0xF5 then some 4
  else none

/-- Whether a byte may follow the first byte of a character of several bytes. -/
def maySecond (first second : UInt8) : Bool :=
  let low : UInt8 := if first = 0xE0 then 0xA0 else if first = 0xF0 then 0x90 else 0x80
  let high : UInt8 := if first = 0xED then 0x9F else if first = 0xF4 then 0x8F else 0xBF
  low ≤ second && second ≤ high

def isContinuation (b : UInt8) : Bool := 0x80 ≤ b && b ≤ 0xBF

/-- How many of the bytes after `first` continue its character, at most `count`. -/
def continued (first : UInt8) (rest : List UInt8) (count : Nat) : Nat :=
  match rest.take count with
  | [] => 0
  | second :: more =>
    if maySecond first second then 1 + (more.takeWhile isContinuation).length else 0

/-- The first fault in bytes that are no text. -/
def encodingFaultFrom : Nat → Nat → List UInt8 → EncodingFault
  | 0, position, _ => .invalidStart 0 position
  | _ + 1, position, [] => .invalidStart 0 position
  | fuel + 1, position, b :: rest =>
    match characterLength? b with
    | none => .invalidStart b.toNat position
    | some length =>
      let more := length - 1
      let found := continued b rest more
      if found = more then encodingFaultFrom fuel (position + length) (rest.drop more)
      else if found = rest.length then
        if found = 0 then .unexpectedEnd b.toNat position
        else .unexpectedEnds position (position + found)
      else if found = 0 then .invalidContinuation b.toNat position
      else .invalidContinuations position (position + found)

/-- The text that bytes encode. -/
def decode (bytes : ByteArray) : Except EncodingFault String :=
  match String.fromUTF8? bytes with
  | some s => .ok s
  | none => .error (encodingFaultFrom (bytes.size + 1) 0 bytes.toList)

/-- The text with every kind of line end replaced by one. -/
def joinLineEnds : List Char → List Char
  | '\r' :: '\n' :: rest => '\n' :: joinLineEnds rest
  | c :: rest => (if c = '\r' then '\n' else c) :: joinLineEnds rest
  | [] => []

/-- The text that the bytes of a text file encode, with line ends of one kind. -/
def decodeLines (bytes : ByteArray) : Except EncodingFault String :=
  (decode bytes).map fun s => String.ofList (joinLineEnds s.toList)

end Text

end LinkShelf
