import LinkShelf.CommandLine.Options
import LinkShelf.Number.Integer
import LinkShelf.Storage.Disk

/-!
Requests: what a command line asks for.
-/

namespace LinkShelf

/-- The fields that are set on a bookmark that is added. A field that is not given stays as it
is. -/
structure GivenFields where
  title : Option String
  /-- Names, each word with one or several of them. -/
  tags : List String
  color : Option String
  notes : Option String
  deriving DecidableEq, Repr

/-- What is to be done. -/
inductive Request where
  | add (url : String) (fields : GivenFields)
  | get (url : String)
  | remove (url : String)
  | move (old new : String)
  | visit (url : String)
  | find (words : List String) (limit : Option Int)
  | tags
  | importFile (path : Path)
  | version
  deriving DecidableEq, Repr

/-- A command line: options for every request, and the request. -/
structure Invocation where
  verbose : Bool
  json : Bool
  store : Option Path
  request : Request
  deriving DecidableEq, Repr

namespace Request

inductive AddOption where
  | title | tag | color | notes
  deriving DecidableEq, Repr

def addForms : List (OptionForm AddOption) := [
  ⟨.title, "--title", some 't', true⟩,
  ⟨.tag, "--tag", some 'g', true⟩,
  ⟨.color, "--color", none, true⟩,
  ⟨.notes, "--notes", some 'n', true⟩]

inductive FindOption where
  | limit
  deriving DecidableEq, Repr

def findForms : List (OptionForm FindOption) := [⟨.limit, "--limit", some 'n', true⟩]

/-- The forms of a command without options. -/
def noForms : List (OptionForm Empty) := []

/-- The values given for an option, in order. -/
def valuesOf {ι : Type} [DecidableEq ι] (options : List (GivenOption ι)) (meaning : ι) :
    List String :=
  (options.filter fun o => o.meaning = meaning).map (·.value)

/-- The only word that is left. -/
def oneArgument (name : String) : List String → Except UsageFault String
  | [] => .error (.missingArgument name)
  | [word] => .ok word
  | _ :: more => .error (.extraArguments more)

def readAdd (args : List String) : Except UsageFault Request := do
  let words ← OptionForm.readWords addForms true args
  let url ← oneArgument "URL" words.others
  return .add url {
    title := (valuesOf words.options .title).getLast?
    tags := valuesOf words.options .tag
    color := (valuesOf words.options .color).getLast?
    notes := (valuesOf words.options .notes).getLast? }

def readFind (args : List String) : Except UsageFault Request := do
  let words ← OptionForm.readWords findForms true args
  match (valuesOf words.options .limit).getLast? with
  | none => return .find words.others none
  | some word =>
    match Number.readPlain? word.toList with
    | some n => return .find words.others (some n)
    | none => throw (.notAnInteger "--limit" word)

/-- A command with one argument and no options. -/
def readOne (name : String) (args : List String) : Except UsageFault String := do
  oneArgument name (← OptionForm.readWords noForms true args).others

def readMove (args : List String) : Except UsageFault Request := do
  match (← OptionForm.readWords noForms true args).others with
  | [] => throw (.missingArgument "OLD_URL")
  | [_] => throw (.missingArgument "NEW_URL")
  | [old, new] => return .move old new
  | _ :: _ :: more => throw (.extraArguments more)

def readTags (args : List String) : Except UsageFault Request := do
  match (← OptionForm.readWords noForms true args).others with
  | [] => return .tags
  | more => throw (.extraArguments more)

/-- The import of a file, which has to be there. A path that is none at all is left to the import,
which fails. -/
def readImport (d : Disk) (args : List String) : Except UsageFault Request := do
  let word ← readOne "FILE" args
  let path := Path.ofText word
  match d.locate path, d.look path with
  | .error .pathWithEnd, _ => return .importFile path
  | _, .ok (some (.file _)) => return .importFile path
  | _, .ok (some .directory) => throw (.isDirectory word)
  | _, _ => throw (.missingFile word)

/-- The request of a command and its arguments. -/
def read (d : Disk) (command : String) (args : List String) : Except UsageFault Request :=
  match command with
  | "add" => readAdd args
  | "get" => (readOne "URL" args).map .get
  | "rm" => (readOne "URL" args).map .remove
  | "mv" => readMove args
  | "visit" => (readOne "URL" args).map .visit
  | "find" => readFind args
  | "tags" => readTags args
  | "import" => readImport d args
  | name => .error (.noSuchCommand name)

end Request

namespace Invocation

inductive CommonOption where
  | verbose | json | version | store
  deriving DecidableEq, Repr

def forms : List (OptionForm CommonOption) := [
  ⟨.verbose, "--verbose", some 'v', false⟩,
  ⟨.json, "--json", some 'j', false⟩,
  ⟨.version, "--version", none, false⟩,
  ⟨.store, "--store", some 's', true⟩]

/-- What a command line asks for. The store of the environment is used where none is given. -/
def read (d : Disk) (environmentStore : Option Path) (args : List String) :
    Except UsageFault Invocation := do
  let words ← OptionForm.readWords forms false args
  let given (o : CommonOption) : Bool := words.options.any fun g => g.meaning = o
  let request ←
    if given .version then pure .version
    else
      match words.others with
      | [] => throw .missingCommand
      | command :: rest => Request.read d command rest
  let store := ((Request.valuesOf words.options .store).getLast?).map Path.ofText
  return {
    verbose := given .verbose
    json := given .json
    store := store.orElse fun _ => environmentStore
    request }

end Invocation

end LinkShelf
