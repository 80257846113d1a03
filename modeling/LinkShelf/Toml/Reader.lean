import LinkShelf.Json.Reader
import LinkShelf.Toml.Value

/-!
Reading TOML documents. A fault carries the text from the place where it was found, from which its
line and column follow.
-/

namespace LinkShelf.Toml

/-- The parts of a dotted key. -/
abbrev Key := List String

/-- What is wrong with a document. -/
inductive FaultKind where
  | statement
  | lineEnd
  | expected (text : String)
  | invalidCharacter (c : Char)
  | illegalCharacter (c : Char)
  | declaredTwice (key : Key)
  | immutable (key : Key)
  | redefined (key : Key)
  | overwritten
  | tableEnd
  | tableListEnd
  | equals
  | keyStart
  | unclosedList
  | unclosedTable
  | duplicateName (name : String)
  | backslash
  | hexDigits
  | notACharacter
  | unterminatedText
  | date
  | value
  deriving DecidableEq, Repr

/-- A key as messages show it. -/
def keyText (key : Key) : String :=
  let parts := key.map quote
  "(" ++ String.intercalate ", " parts ++ (if parts.length = 1 then ",)" else ")")

def FaultKind.message : FaultKind → String
  | .statement => "Invalid statement"
  | .lineEnd => "Expected newline or end of document after a statement"
  | .expected text => "Expected " ++ quote text
  | .invalidCharacter c => "Found invalid character " ++ quote (String.singleton c)
  | .illegalCharacter c => "Illegal character " ++ quote (String.singleton c)
  | .declaredTwice key => "Cannot declare " ++ keyText key ++ " twice"
  | .immutable key => "Cannot mutate immutable namespace " ++ keyText key
  | .redefined key => "Cannot redefine namespace " ++ keyText key
  | .overwritten => "Cannot overwrite a value"
  | .tableEnd => "Expected ']' at the end of a table declaration"
  | .tableListEnd => "Expected ']]' at the end of an array declaration"
  | .equals => "Expected '=' after a key in a key/value pair"
  | .keyStart => "Invalid initial character for a key part"
  | .unclosedList => "Unclosed array"
  | .unclosedTable => "Unclosed inline table"
  | .duplicateName name => "Duplicate inline table key " ++ quote name
  | .backslash => "Unescaped '\\' in a string"
  | .hexDigits => "Invalid hex value"
  | .notACharacter => "Escaped character is not a Unicode scalar value"
  | .unterminatedText => "Unterminated string"
  | .date => "Invalid date or datetime"
  | .value => "Invalid value"

/-- Why reading stopped: a fault and the text that begins at it, or an integer with too many
digits. -/
inductive Stop where
  | fault (kind : FaultKind) (rest : List Char)
  | oversized (digits : Nat)
  deriving DecidableEq, Repr

/-- Why a document is not read. A fault without a place stands at the end of the document. -/
inductive ReadError where
  | malformed (kind : FaultKind) (place : Option Json.Place)
  | oversized (digits : Nat)
  deriving DecidableEq, Repr

def isSpace (c : Char) : Bool := c = ' ' || c = '\t'
def isSpaceOrLine (c : Char) : Bool := isSpace c || c = '\n'
def isBareKeyChar (c : Char) : Bool := c.isAlphanum || c = '-' || c = '_'

/-- A control character, the tab apart. -/
def isIllegal (c : Char) : Bool := (c.toNat < 32 && c != '\t') || c.toNat = 127

def isIllegalInLines (c : Char) : Bool := isIllegal c && c != '\n'

def skipSpace (cs : List Char) : List Char := cs.dropWhile isSpace

/-- The text after a given one, if it starts with that. -/
def after? (start : String) (cs : List Char) : Option (List Char) :=
  if start.toList.isPrefixOf cs then some (cs.drop start.toList.length) else none

/-- The first of the characters that are not allowed in a part of a text, as a fault. -/
def checkCharacters (illegal : Char → Bool) (part rest : List Char) : Except Stop Unit :=
  match part.dropWhile fun c => !illegal c with
  | [] => .ok ()
  | c :: more => .error (.fault (.invalidCharacter c) (c :: more ++ rest))

/-- The text after a comment, if one starts here. -/
def skipComment : List Char → Except Stop (List Char)
  | '#' :: rest => do
    let (comment, rest) := rest.span (· ≠ '\n')
    checkCharacters isIllegal comment rest
    return rest
  | cs => .ok cs

/-- The text after blanks, line ends and comments. -/
def skipCommentsAndLines : Nat → List Char → Except Stop (List Char)
  | 0, cs => .ok cs
  | fuel + 1, cs => do
    let rest ← skipComment (cs.dropWhile isSpaceOrLine)
    if rest.length = cs.length then return rest else skipCommentsAndLines fuel rest

/-- What stands before and after the first occurrence of a text. -/
def cutAtText (mark : List Char) : List Char → Option (List Char × List Char)
  | [] => none
  | c :: cs =>
    if mark.isPrefixOf (c :: cs) then some ([], (c :: cs).drop mark.length)
    else (cutAtText mark cs).map fun (before, rest) => (c :: before, rest)

/-- A text up to a closing mark, which stands for itself throughout. -/
def readLiteralUpTo (mark : String) (illegal : Char → Bool) (cs : List Char) :
    Except Stop (List Char × List Char) :=
  match cutAtText mark.toList cs with
  | none => .error (.fault (.expected mark) [])
  | some (content, rest) => do
    checkCharacters illegal content (mark.toList ++ rest)
    return (content, rest)

/-- The character that hexadecimal digits after an escape write. -/
def readHexChar (count : Nat) (cs : List Char) : Except Stop (Char × List Char) :=
  let digits := cs.take count
  match digits.mapM Json.hexValue? with
  | some values =>
    if digits.length ≠ count then .error (.fault .hexDigits cs)
    else
      let rest := cs.drop count
      let n := values.foldl (fun n d => 16 * n + d) 0
      if n < 0xD800 ∨ (0xDFFF < n ∧ n ≤ 0x10FFFF) then .ok (Char.ofNat n, rest)
      else .error (.fault .notACharacter rest)
  | none => .error (.fault .hexDigits cs)

/-- The character that a one-letter escape stands for. -/
def simpleEscape? : Char → Option Char
  | 'b' => some (Char.ofNat 8)
  | 't' => some '\t'
  | 'n' => some '\n'
  | 'f' => some (Char.ofNat 12)
  | 'r' => some '\r'
  | '"' => some '"'
  | '\\' => some '\\'
  | _ => none

/-- What an escape stands for; `cs` follows the backslash. In a text of several lines a backslash
at the end of a line takes away the white space up to the next character. -/
def readEscape (lines : Bool) : List Char → Except Stop (List Char × List Char)
  | [] => .error (.fault .backslash [])
  | c :: rest =>
    if lines && isSpaceOrLine c then
      if c = '\n' then .ok ([], rest.dropWhile isSpaceOrLine)
      else
        match skipSpace rest with
        | [] => .ok ([], [])
        | '\n' :: rest => .ok ([], rest.dropWhile isSpaceOrLine)
        | rest => .error (.fault .backslash rest)
    else if c = 'u' then (readHexChar 4 rest).map fun (d, rest) => ([d], rest)
    else if c = 'U' then (readHexChar 8 rest).map fun (d, rest) => ([d], rest)
    else
      match simpleEscape? c with
      | some d => .ok ([d], rest)
      | none => .error (.fault .backslash rest)

/-- A text with escapes up to its closing quote, or in several lines up to three quotes. -/
def readBasic (lines : Bool) : Nat → List Char → Except Stop (List Char × List Char)
  | 0, cs => .error (.fault .unterminatedText cs)
  | _ + 1, [] => .error (.fault .unterminatedText [])
  | fuel + 1, c :: rest =>
    if c = '"' then
      if !lines then .ok ([], rest)
      else
        match after? "\"\"" rest with
        | some rest => .ok ([], rest)
        | none => (readBasic lines fuel rest).map fun (s, r) => ('"' :: s, r)
    else if c = '\\' then do
      let (part, rest) ← readEscape lines rest
      let (s, rest) ← readBasic lines fuel rest
      return (part ++ s, rest)
    else if (if lines then isIllegalInLines c else isIllegal c) then
      .error (.fault (.illegalCharacter c) (c :: rest))
    else (readBasic lines fuel rest).map fun (s, r) => (c :: s, r)

/-- A text of several lines after its three opening quotes. Up to two more quotes in front of the
closing ones belong to the text. -/
def readLines (literal : Bool) (cs : List Char) : Except Stop (List Char × List Char) := do
  let cs := (after? "\n" cs).getD cs
  let quoteMark := if literal then '\'' else '"'
  let (s, rest) ←
    if literal then readLiteralUpTo "'''" isIllegalInLines cs
    else readBasic true (cs.length + 1) cs
  match rest with
  | c :: d :: more =>
    if c = quoteMark ∧ d = quoteMark then return (s ++ [c, d], more)
    else if c = quoteMark then return (s ++ [c], d :: more)
    else return (s, rest)
  | [c] => if c = quoteMark then return (s ++ [c], []) else return (s, rest)
  | [] => return (s, [])

/-- A text at the start, with the quote that it begins with. -/
def readText : List Char → Except Stop (String × List Char)
  | '"' :: rest =>
    (match after? "\"\"" rest with
      | some rest => readLines false rest
      | none => readBasic false (rest.length + 1) rest).map fun (s, r) => (String.ofList s, r)
  | '\'' :: rest =>
    (match after? "''" rest with
      | some rest => readLines true rest
      | none => readLiteralUpTo "'" isIllegal rest).map fun (s, r) => (String.ofList s, r)
  | cs => .error (.fault .value cs)

/-- One part of a key. -/
def readKeyPart (cs : List Char) : Except Stop (String × List Char) :=
  match cs with
  | '"' :: rest =>
    (readBasic false (rest.length + 1) rest).map fun (s, r) => (String.ofList s, r)
  | '\'' :: rest =>
    (readLiteralUpTo "'" isIllegal rest).map fun (s, r) => (String.ofList s, r)
  | _ =>
    match cs.span isBareKeyChar with
    | ([], _) => .error (.fault .keyStart cs)
    | (name, rest) => .ok (String.ofList name, rest)

/-- A key: parts with full stops between, and the blanks after it. -/
def readKey : Nat → List Char → Except Stop (Key × List Char)
  | 0, cs => .error (.fault .keyStart cs)
  | fuel + 1, cs => do
    let (part, rest) ← readKeyPart cs
    match skipSpace rest with
    | '.' :: rest =>
      let (parts, rest) ← readKey fuel (skipSpace rest)
      return (part :: parts, rest)
    | rest => return ([part], rest)

/-- The digits at the start of a text, single underscores between them left out. -/
def digitsOf (isDigit : Char → Bool) : List Char → List Char × List Char
  | [] => ([], [])
  | '_' :: d :: rest =>
    if isDigit d then
      let (ds, r) := digitsOf isDigit rest
      (d :: ds, r)
    else ([], '_' :: d :: rest)
  | d :: rest =>
    if isDigit d then
      let (ds, r) := digitsOf isDigit rest
      (d :: ds, r)
    else ([], d :: rest)

/-- A run of digits that does not begin with an underscore. -/
def digitRun? (isDigit : Char → Bool) (cs : List Char) : Option (List Char × List Char) :=
  match cs with
  | d :: _ => if isDigit d then some (digitsOf isDigit cs) else none
  | [] => none

def valueOf (base : Nat) (digits : List Char) : Nat :=
  digits.foldl (fun n c => base * n + (Json.hexValue? c).getD 0) 0

def isHex (c : Char) : Bool := (Json.hexValue? c).isSome
def isOctal (c : Char) : Bool := '0' ≤ c && c ≤ '7'
def isBinary (c : Char) : Bool := c = '0' || c = '1'

/-- A number with a base mark: `0x`, `0o` or `0b`. -/
def radixNumber? (cs : List Char) : Option (Nat × List Char) :=
  let attempt (mark : String) (base : Nat) (isDigit : Char → Bool) : Option (Nat × List Char) := do
    let rest ← after? mark cs
    let (digits, rest) ← digitRun? isDigit rest
    return (valueOf base digits, rest)
  attempt "0x" 16 isHex <|> attempt "0b" 2 isBinary <|> attempt "0o" 8 isOctal

/-- The digits before the point of a decimal number: zero alone or digits that start with another
one. -/
def wholePart? : List Char → Option (List Char × List Char)
  | '0' :: rest => some (['0'], rest)
  | cs => digitRun? Char.isDigit cs

/-- A decimal number, if one stands at the start. -/
def decimalNumber? (cs : List Char) : Option (Except Stop (Value × List Char)) := do
  let (negative, body) : Bool × List Char :=
    match cs with
    | '-' :: rest => (true, rest)
    | '+' :: rest => (false, rest)
    | rest => (false, rest)
  let (whole, rest) ← wholePart? body
  let fraction : Option (List Char × List Char) := do
    let rest ← after? "." rest
    digitRun? Char.isDigit rest
  let (digits, afterFraction) := fraction.getD ([], rest)
  let exponent : Option (Int × List Char) := do
    let rest ← after? "e" afterFraction <|> after? "E" afterFraction
    let (minus, rest) : Bool × List Char :=
      match rest with
      | '-' :: r => (true, r)
      | '+' :: r => (false, r)
      | r => (false, r)
    let (ds, rest) ← digitRun? Char.isDigit rest
    let n : Int := valueOf 10 ds
    return (if minus then -n else n, rest)
  match fraction, exponent with
  | none, none =>
    if Number.maxDigits < whole.length then return .error (.oversized whole.length)
    else
      let n : Int := valueOf 10 whole
      return .ok (.int (if negative then -n else n), rest)
  | _, _ =>
    let (shift, rest) := exponent.getD (0, afterFraction)
    return .ok
      (.float (.ofDecimal negative (valueOf 10 (whole ++ digits)) (shift - digits.length)), rest)

/-- Exactly `count` digits at the start of a text, as a number, and the rest. -/
def fixedDigits? (count : Nat) (cs : List Char) : Option (Nat × List Char) :=
  let digits := cs.take count
  if digits.length = count ∧ digits.all Char.isDigit then
    some (valueOf 10 digits, cs.drop count)
  else none

/-- Two digits with a value in a range. -/
def twoDigits? (low high : Nat) (cs : List Char) : Option (Nat × List Char) := do
  let (n, rest) ← fixedDigits? 2 cs
  if low ≤ n ∧ n ≤ high then return (n, rest) else none

/-- The clock time at the start of a text: hour, minute, second and an optional fraction. -/
def clock? (cs : List Char) : Option (TimeOfDay × List Char) := do
  let (hour, rest) ← twoDigits? 0 23 cs
  let rest ← after? ":" rest
  let (minute, rest) ← twoDigits? 0 59 rest
  let rest ← after? ":" rest
  let (second, rest) ← twoDigits? 0 59 rest
  match rest with
  | '.' :: more =>
    match more.span Char.isDigit with
    | ([], _) => return (⟨hour, minute, second, 0⟩, rest)
    | (digits, more) =>
      let kept := digits.take 6
      return (⟨hour, minute, second, valueOf 10 kept * Nat.pow 10 (6 - kept.length)⟩, more)
  | _ => return (⟨hour, minute, second, 0⟩, rest)

/-- The offset at the start of a text, in minutes. -/
def offset? (cs : List Char) : Option (Int × List Char) :=
  match cs with
  | 'Z' :: rest => some (0, rest)
  | 'z' :: rest => some (0, rest)
  | sign :: rest =>
    if sign = '+' ∨ sign = '-' then do
      let (hour, rest) ← twoDigits? 0 23 rest
      let rest ← after? ":" rest
      let (minute, rest) ← twoDigits? 0 59 rest
      let n : Int := (60 * hour + minute : Nat)
      return (if sign = '-' then -n else n, rest)
    else none
  | [] => none

/-- The date or the moment at the start of a text, if one stands there. -/
def moment? (cs : List Char) : Option (Except Stop (Value × List Char)) := do
  let (year, rest) ← fixedDigits? 4 cs
  let rest ← after? "-" rest
  let (month, rest) ← twoDigits? 1 12 rest
  let rest ← after? "-" rest
  let (day, rest) ← twoDigits? 1 31 rest
  let date : LocalDate := ⟨year, month, day⟩
  let exists? := (Date.of? year month day).isSome
  let clock : Option (TimeOfDay × List Char) := do
    let more ← after? "T" rest <|> after? "t" rest <|> after? " " rest
    clock? more
  match clock with
  | none =>
    return if exists? then .ok (.date date, rest) else .error (.fault .date cs)
  | some (time, rest) =>
    if !exists? then return .error (.fault .date cs)
    match offset? rest with
    | some (minutes, rest) => return .ok (.moment date time (some minutes), rest)
    | none => return .ok (.moment date time none, rest)

/-- The numbers that are written as words. -/
def wordNumber? (cs : List Char) : Option (Value × List Char) :=
  let attempt (word : String) (x : Binary64) := (after? word cs).map fun r => (Value.float x, r)
  attempt "inf" (.infinite false) <|> attempt "nan" .notANumber <|>
    attempt "-inf" (.infinite true) <|> attempt "+inf" (.infinite false) <|>
    attempt "-nan" .notANumber <|> attempt "+nan" .notANumber

/-- A truth value, date, time or number. -/
def readScalar (cs : List Char) : Except Stop (Value × List Char) :=
  match after? "true" cs, after? "false" cs with
  | some rest, _ => .ok (.bool true, rest)
  | _, some rest => .ok (.bool false, rest)
  | none, none =>
    match moment? cs with
    | some found => found
    | none =>
      match clock? cs with
      | some (time, rest) => .ok (.time time, rest)
      | none =>
        match radixNumber? cs with
        | some (n, rest) => .ok (.int n, rest)
        | none =>
          match decimalNumber? cs with
          | some found => found
          | none =>
            match wordNumber? cs with
            | some found => .ok found
            | none => .error (.fault .value cs)

/-- A mark on a key: whether it and, if `below`, all keys under it may no longer change. -/
inductive MarkKind where
  /-- The table was opened and is not opened again. -/
  | opened
  /-- The value was written in one piece and does not grow. -/
  | frozen
  deriving DecidableEq, Repr

structure Mark where
  key : Key
  kind : MarkKind
  below : Bool
  deriving DecidableEq, Repr

/-- Whether a key has a mark, by itself or from a key above it. -/
def marked (marks : List Mark) (key : Key) (kind : MarkKind) : Bool :=
  marks.any fun m => m.kind = kind && (m.key == key || (m.below && m.key.isPrefixOf key))

/-- A table with the table under a key changed by `f`; the tables on the way are made where they
are missing. The last table of a list stands for the list if `throughLists`. -/
def changeTable (throughLists : Bool) (f : Table → Option Table) : Key → Table → Option Table
  | [], members => f members
  | name :: key, members =>
    match members.lookup name with
    | none => do
      let inner ← changeTable throughLists f key []
      return members ++ [(name, .table inner)]
    | some (.table inner) => do
      let inner ← changeTable throughLists f key inner
      return members.map fun m => if m.1 = name then (name, .table inner) else m
    | some (.list items) =>
      if throughLists then
        match items.getLast? with
        | some (.table inner) => do
          let inner ← changeTable throughLists f key inner
          return members.map fun m =>
            if m.1 = name then (name, .list (items.dropLast ++ [.table inner])) else m
        | _ => none
      else none
    | some _ => none

/-- A table with a new member, unless it has one of that name. -/
def addMember (name : String) (v : Value) (members : Table) : Option Table :=
  if (members.lookup name).isSome then none else some (members ++ [(name, v)])

/-- A table with one more table in the list of that name. -/
def addToList (name : String) (members : Table) : Option Table :=
  match members.lookup name with
  | none => some (members ++ [(name, .list [.table []])])
  | some (.list items) =>
    some (members.map fun m => if m.1 = name then (name, .list (items ++ [.table []])) else m)
  | some _ => none

def isContainer : Value → Bool
  | .list _ => true
  | .table _ => true
  | _ => false

mutual

/-- The value at the start of a text. -/
def readValue : Nat → List Char → Except Stop (Value × List Char)
  | 0, cs => .error (.fault .value cs)
  | fuel + 1, cs =>
    match cs with
    | '"' :: _ => (readText cs).map fun (s, r) => (.text s, r)
    | '\'' :: _ => (readText cs).map fun (s, r) => (.text s, r)
    | '[' :: rest => do
      let rest ← skipCommentsAndLines (rest.length + 1) rest
      match rest with
      | ']' :: rest => return (.list [], rest)
      | rest =>
        let (items, rest) ← readItems fuel rest
        return (.list items, rest)
    | '{' :: rest =>
      match skipSpace rest with
      | '}' :: rest => .ok (.table [], rest)
      | rest => do
        let (members, rest) ← readMembers fuel [] [] rest
        return (.table members, rest)
    | _ => readScalar cs

/-- The items of a list up to its closing bracket. -/
def readItems : Nat → List Char → Except Stop (List Value × List Char)
  | 0, cs => .error (.fault .unclosedList cs)
  | fuel + 1, cs => do
    let (v, rest) ← readValue fuel cs
    let rest ← skipCommentsAndLines (rest.length + 1) rest
    match rest with
    | ']' :: rest => return ([v], rest)
    | ',' :: rest =>
      let rest ← skipCommentsAndLines (rest.length + 1) rest
      match rest with
      | ']' :: rest => return ([v], rest)
      | rest =>
        let (items, rest) ← readItems fuel rest
        return (v :: items, rest)
    | rest => throw (.fault .unclosedList rest)

/-- A key, an equals sign and a value. -/
def readPair : Nat → List Char → Except Stop ((Key × Value) × List Char)
  | 0, cs => .error (.fault .keyStart cs)
  | fuel + 1, cs => do
    let (key, rest) ← readKey (cs.length + 1) cs
    match rest with
    | '=' :: rest =>
      let (v, rest) ← readValue fuel (skipSpace rest)
      return ((key, v), rest)
    | rest => throw (.fault .equals rest)

/-- The members of a table on one line up to its closing brace. -/
def readMembers : Nat → List Mark → Table → List Char → Except Stop (Table × List Char)
  | 0, _, _, cs => .error (.fault .unclosedTable cs)
  | fuel + 1, marks, found, cs => do
    let ((key, v), rest) ← readPair fuel cs
    if marked marks key .frozen then throw (.fault (.immutable key) rest)
    let name := key.getLastD ""
    let place := key.dropLast
    match changeTable false some place found with
    | none => throw (.fault .overwritten rest)
    | some _ =>
      match changeTable false (addMember name v) place found with
      | none => throw (.fault (.duplicateName name) rest)
      | some found =>
        match skipSpace rest with
        | '}' :: rest => return (found, rest)
        | ',' :: rest =>
          let marks := if isContainer v then ⟨key, .frozen, true⟩ :: marks else marks
          readMembers fuel marks found (skipSpace rest)
        | rest => throw (.fault .unclosedTable rest)

end

/-- What has been read of a document: its table, the marks on keys, the marks that count from the
next table on, and the key of the table that is being filled. -/
structure Document where
  table : Table
  marks : List Mark
  pending : List Mark
  header : Key
  deriving Repr

/-- The document with a table opened under a key. -/
def Document.openTable (doc : Document) (key : Key) (rest : List Char) : Except Stop Document := do
  if marked doc.marks key .opened || marked doc.marks key .frozen then
    throw (.fault (.declaredTwice key) rest)
  match changeTable true some key doc.table with
  | none => throw (.fault .overwritten rest)
  | some table =>
    return { doc with table, marks := ⟨key, .opened, false⟩ :: doc.marks, header := key }

/-- The document with one more table in the list under a key. -/
def Document.openListItem (doc : Document) (key : Key) (rest : List Char) :
    Except Stop Document := do
  if marked doc.marks key .frozen then throw (.fault (.immutable key) rest)
  let marks := doc.marks.filter fun m => !key.isPrefixOf m.key
  match changeTable true (addToList (key.getLastD "")) key.dropLast doc.table with
  | none => throw (.fault .overwritten rest)
  | some table =>
    return { doc with table, marks := ⟨key, .opened, false⟩ :: marks, header := key }

/-- The marks on the tables that a dotted key passes through, or the first of them that may not be
passed through. -/
def Document.passThrough (doc : Document) (key : Key) : Nat → Except Key (List Mark)
  | 0 => .ok []
  | n + 1 => do
    let marks ← doc.passThrough key n
    let passed := doc.header ++ key.take (n + 1)
    if marked doc.marks passed .opened then throw passed
    return ⟨passed, .opened, false⟩ :: marks

/-- The document with a value put under a key of the table that is being filled. -/
def Document.put (doc : Document) (key : Key) (v : Value) (rest : List Char) :
    Except Stop Document := do
  let place := doc.header ++ key.dropLast
  match doc.passThrough key (key.length - 1) with
  | .error passed => throw (.fault (.redefined passed) rest)
  | .ok pending =>
    if marked doc.marks place .frozen then throw (.fault (.immutable place) rest)
    match changeTable true (addMember (key.getLastD "") v) place doc.table with
    | none => throw (.fault .overwritten rest)
    | some table =>
      let marks :=
        if isContainer v then ⟨doc.header ++ key, .frozen, true⟩ :: doc.marks else doc.marks
      return { doc with table, marks, pending := pending ++ doc.pending }

/-- The document after the statement at the start of a text, and the rest of its line. -/
def Document.readStatement (doc : Document) (cs : List Char) : Except Stop (Document × List Char) :=
  match cs with
  | '[' :: rest =>
    let doc := { doc with marks := doc.pending ++ doc.marks, pending := [] }
    match rest with
    | '[' :: rest => do
      let (key, rest) ← readKey (rest.length + 1) (skipSpace rest)
      let doc ← doc.openListItem key rest
      match after? "]]" rest with
      | some rest => return (doc, skipSpace rest)
      | none => throw (.fault .tableListEnd rest)
    | rest => do
      let (key, rest) ← readKey (rest.length + 1) (skipSpace rest)
      let doc ← doc.openTable key rest
      match after? "]" rest with
      | some rest => return (doc, skipSpace rest)
      | none => throw (.fault .tableEnd rest)
  | '#' :: _ => .ok (doc, cs)
  | c :: _ =>
    if isBareKeyChar c || c = '"' || c = '\'' then do
      let ((key, v), rest) ← readPair (2 * cs.length + 2) cs
      let doc ← doc.put key v rest
      return (doc, skipSpace rest)
    else .error (.fault .statement cs)
  | [] => .ok (doc, [])

/-- The document after all lines of a text. -/
def Document.readLines : Nat → Document → List Char → Except Stop Document
  | 0, doc, _ => .ok doc
  | fuel + 1, doc, cs =>
    match skipSpace cs with
    | [] => .ok doc
    | '\n' :: rest => doc.readLines fuel rest
    | cs => do
      let (doc, rest) ← doc.readStatement cs
      let rest ← skipComment rest
      match rest with
      | [] => return doc
      | '\n' :: rest => doc.readLines fuel rest
      | rest => throw (.fault .lineEnd rest)

/-- The text with line ends of two characters replaced by one. -/
def joinLineEnds : List Char → List Char
  | '\r' :: '\n' :: rest => '\n' :: joinLineEnds rest
  | c :: rest => c :: joinLineEnds rest
  | [] => []

/-- The place of a fault, which is the end of the document when nothing is left. -/
def placeOf (cs rest : List Char) : Option Json.Place :=
  if rest.isEmpty then none else some (.after (cs.take (cs.length - rest.length)))

/-- The table that a document writes. -/
def read (s : String) : Except ReadError Table :=
  let cs := joinLineEnds s.toList
  match Document.readLines (cs.length + 1) ⟨[], [], [], []⟩ cs with
  | .ok doc => .ok doc.table
  | .error (.fault kind rest) => .error (.malformed kind (placeOf cs rest))
  | .error (.oversized digits) => .error (.oversized digits)

def ReadError.message : ReadError → String
  | .malformed kind place =>
    let at? := match place with
      | some p => "line " ++ String.ofList (Nat.toDigits 10 p.line) ++ ", column " ++
          String.ofList (Nat.toDigits 10 p.column)
      | none => "end of document"
    kind.message ++ " (at " ++ at? ++ ")"
  | .oversized _ => ""

end LinkShelf.Toml
