import LinkShelf.Text.Pieces

/-!
Options: words of a command line that begin with a hyphen. A long option is a word of its own and
may have its value after an equals sign; short ones may share a word, and the last of them may have
its value there. Any other value is the next word.
-/

namespace LinkShelf

/-- Why a command line is not understood. -/
inductive UsageFault where
  | noSuchOption (name : String)
  | missingValue (name : String)
  | needlessValue (name : String)
  | missingCommand
  | noSuchCommand (name : String)
  | missingArgument (name : String)
  | extraArguments (words : List String)
  | notAnInteger (option word : String)
  | missingFile (path : String)
  | isDirectory (path : String)
  deriving DecidableEq, Repr

def UsageFault.message : UsageFault → String
  | .noSuchOption name => "No such option: " ++ name
  | .missingValue name => "Option '" ++ name ++ "' requires an argument."
  | .needlessValue name => "Option '" ++ name ++ "' does not take a value."
  | .missingCommand => "Missing command."
  | .noSuchCommand name => "No such command '" ++ name ++ "'."
  | .missingArgument name => "Missing argument '" ++ name ++ "'."
  | .extraArguments words =>
    "Got unexpected extra argument" ++ (if words.length = 1 then "" else "s") ++ " (" ++
      String.intercalate " " words ++ ")"
  | .notAnInteger option word =>
    "Invalid value for '" ++ option ++ "': '" ++ word ++ "' is not a valid integer."
  | .missingFile path => "Invalid value for 'FILE': File '" ++ path ++ "' does not exist."
  | .isDirectory path => "Invalid value for 'FILE': File '" ++ path ++ "' is a directory."

/-- An option: what it stands for, its long name and its letter, and whether a value belongs to
it. -/
structure OptionForm (ι : Type) where
  meaning : ι
  long : String
  letter : Option Char
  takesValue : Bool

/-- An option as it was given, with its value. -/
structure GivenOption (ι : Type) where
  meaning : ι
  value : String

/-- The options of a command line in order, and the other words. -/
structure Words (ι : Type) where
  options : List (GivenOption ι)
  others : List String

namespace OptionForm

open Text

variable {ι : Type}

/-- What a word gives: complete options, and perhaps one that waits for its value. -/
structure Reading (ι : Type) where
  complete : List (GivenOption ι)
  waiting : Option (OptionForm ι)

/-- The letters of a word with short options. -/
def readLetters (forms : List (OptionForm ι)) : List Char → Except UsageFault (Reading ι)
  | [] => .ok ⟨[], none⟩
  | c :: rest =>
    match forms.find? fun f => f.letter = some c with
    | none => .error (.noSuchOption (String.ofList ['-', c]))
    | some form =>
      if form.takesValue then
        if rest.isEmpty then .ok ⟨[], some form⟩
        else .ok ⟨[⟨form.meaning, String.ofList rest⟩], none⟩
      else do
        let more ← readLetters forms rest
        return { more with complete := ⟨form.meaning, ""⟩ :: more.complete }

/-- A word that begins with a hyphen. -/
def readWord (forms : List (OptionForm ι)) (word : String) : Except UsageFault (Reading ι) :=
  let (name, value) := match cutFirst (· == '=') word.toList with
    | some (before, after) => (String.ofList before, some (String.ofList after))
    | none => (word, none)
  match forms.find? (fun f => f.long = name), value with
  | some form, some value =>
    if form.takesValue then .ok ⟨[⟨form.meaning, value⟩], none⟩ else .error (.needlessValue name)
  | some form, none =>
    if form.takesValue then .ok ⟨[], some form⟩ else .ok ⟨[⟨form.meaning, ""⟩], none⟩
  | none, _ =>
    if "--".toList.isPrefixOf word.toList then .error (.noSuchOption name)
    else readLetters forms (word.toList.drop 1)

/-- Whether a word holds options. -/
def isOption (word : String) : Bool :=
  match word.toList with
  | '-' :: _ :: _ => true
  | _ => false

/-- The options among some words. Two hyphens end them; where options may not come later than other
words, so does the first other word. -/
def readWords (forms : List (OptionForm ι)) (mixed : Bool) :
    List String → Except UsageFault (Words ι)
  | [] => .ok ⟨[], []⟩
  | word :: rest =>
    if word = "--" then .ok ⟨[], rest⟩
    else if isOption word then do
      let reading ← readWord forms word
      match reading.waiting, rest with
      | none, rest =>
        let found ← readWords forms mixed rest
        return { found with options := reading.complete ++ found.options }
      | some form, value :: rest =>
        let found ← readWords forms mixed rest
        return { found with
          options := reading.complete ++ ⟨form.meaning, value⟩ :: found.options }
      | some form, [] => throw (.missingValue form.long)
    else if mixed then do
      let found ← readWords forms mixed rest
      return { found with others := word :: found.others }
    else .ok ⟨[], word :: rest⟩

end OptionForm

end LinkShelf
