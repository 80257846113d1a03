import LinkShelf.Color
import LinkShelf.Failure
import LinkShelf.Locator
import LinkShelf.Tag

/-!
Bookmarks: what is kept about a URL. The texts of a record are whatever JSON values the record
held, so that a value that is no text is kept as it came; `null` stands for a missing one.
-/

namespace LinkShelf

/-- The tags of a bookmark: a set of names, or a value that was put in its place as it was. -/
inductive Tags where
  | names (set : TagSet)
  | other (v : Json)
  deriving Repr

/-- What is kept about a URL. -/
structure Bookmark where
  locator : Locator
  title : Json
  notes : Json
  image : Json
  tags : Tags
  color : Json
  created : Option Instant
  modified : Option Instant
  lastVisited : Option Instant
  visitCount : Json
  deriving Repr

namespace Json

/-- The values that going through a value gives: the characters of a text, the items of a list, the
names of an object. -/
def items : Json → Except Failure (List Json)
  | .text s => .ok (s.toList.map fun c => .text (String.singleton c))
  | .list items => .ok items
  | .object members => .ok (members.map fun m => .text m.1)
  | v => .error (.kind (.notIterable v.kind.name))

/-- The value as an integer: numbers lose their fraction and texts are read. -/
def toInteger : Json → Except Failure Int
  | .bool b => .ok (if b then 1 else 0)
  | .int n => .ok n
  | .float x =>
    match x.value? with
    | some v => .ok v.truncate
    | none => .error (if x = .notANumber then .nanInteger else .infiniteInteger)
  | .text s =>
    match Number.readInteger s.toList with
    | .ok n => .ok n
    | .error fault => .error (.integer s fault)
  | v => .error (.kind (.notANumber v.kind.name))

/-- Whether a comparison holds between two values. -/
def compareValues (op : Comparison) (v w : Json) : Except Failure Bool :=
  match compareBy op v w with
  | .ok b => .ok b
  | .error e => .error (.kind (.incomparable e.comparison e.left.name e.right.name))

end Json

namespace Tags

/-- The values that going through the tags gives. -/
def items : Tags → Except Failure (List Json)
  | .names set => .ok (set.names.map .text)
  | .other v => v.items

def isBlank : Tags → Bool
  | .names set => set.isEmpty
  | .other v => v.isBlank

/-- Whether a tag is among the tags. -/
def holds (tag : String) : Tags → Except Failure Bool
  | .names set => .ok (set.contains tag)
  | .other (.text s) => .ok (Text.contains tag.toList s.toList)
  | .other (.list items) => .ok (items.any fun v => v.same (.text tag))
  | .other (.object members) => .ok (members.any fun m => m.1 == tag)
  | .other v => .error (.kind (.notSearchable v.kind.name))

def same : Tags → Tags → Bool
  | .names a, .names b => a == b
  | .other a, .other b => a.same b
  | _, _ => false

/-- The tags of a record in normal form: texts are split, and every other value is gone through. -/
def ofJson (v : Json) : Except Failure TagSet := do
  if v.isBlank then return .empty
  match v with
  | .text s => return .ofText s
  | v =>
    let names ← (← v.items).mapM fun item => do
      match item with
      | .text s =>
        match Tag.normalize? s with
        | some name => return name
        | none => throw .blankTag
      | item => throw (if item.isBlank then .blankTag else .noSuchOperation)
    return .ofList names

end Tags

namespace Color

/-- The color of a record in normal form; `null` and blank texts are none. -/
def ofJson : Json → Except Failure Json
  | .null => .ok .null
  | .text s =>
    match read s with
    | .absent => .ok .null
    | .color normal => .ok (.text normal)
    | .invalid => .error (.color (quote s))
  | _ => .error .noSuchOperation

end Color

namespace Locator

/-- The locator of the URL that a value holds. -/
def ofJson (v : Json) : Except Failure Locator :=
  if v.isBlank then .error (.url .empty)
  else
    match v with
    | .text s =>
      match of s with
      | .ok l => .ok l
      | .error fault => .error (.url fault)
    | _ => .error .noSuchOperation

end Locator

/-- A change to a field of a bookmark. Values are taken as they are. -/
inductive Change where
  | locator (l : Locator)
  | title (v : Json)
  | notes (v : Json)
  | image (v : Json)
  | tags (tags : Tags)
  | color (v : Json)
  | created (t : Option Instant)
  | modified (t : Option Instant)
  | lastVisited (t : Option Instant)
  | visitCount (v : Json)
  deriving Repr

/-- The fields from which a bookmark is made. -/
structure Fields where
  title : Json := .text ""
  notes : Json := .text ""
  image : Json := .null
  tags : Json := .null
  color : Json := .null
  created : Option Instant := none
  modified : Option Instant := none
  lastVisited : Option Instant := none
  visitCount : Json := .null
  deriving Repr

namespace Bookmark

def url (b : Bookmark) : String := b.locator.url

/-- The bookmark, unless its visit count is below zero. -/
def checked (b : Bookmark) : Except Failure Bookmark := do
  if b.visitCount.isNull then return b
  if ← b.visitCount.compareValues .less (.int 0) then
    throw (if b.visitCount.hasOversized then .oversizedInteger
      else .negativeVisits (String.ofList b.visitCount.shown))
  return b

/-- A bookmark of a URL, with the URL, the tags and the color in normal form. -/
def of (url : Json) (f : Fields) : Except Failure Bookmark := do
  let locator ← Locator.ofJson url
  let tags ← Tags.ofJson f.tags
  let color ← Color.ofJson f.color
  checked {
    locator
    title := f.title
    notes := f.notes
    image := f.image
    tags := .names tags
    color
    created := f.created
    modified := f.modified
    lastVisited := f.lastVisited
    visitCount := f.visitCount }

def change (b : Bookmark) : Change → Bookmark
  | .locator l => { b with locator := l }
  | .title v => { b with title := v }
  | .notes v => { b with notes := v }
  | .image v => { b with image := v }
  | .tags tags => { b with tags }
  | .color v => { b with color := v }
  | .created t => { b with created := t }
  | .modified t => { b with modified := t }
  | .lastVisited t => { b with lastVisited := t }
  | .visitCount v => { b with visitCount := v }

/-- The bookmark with some fields changed. -/
def replace (b : Bookmark) (changes : List Change) : Except Failure Bookmark :=
  (changes.foldl change b).checked

/-- One visit more than a count; a missing or blank count is zero. -/
def nextVisit (count : Json) : Json :=
  if count.isBlank then .int 1
  else
    match count with
    | .bool b => .int (if b then 2 else 1)
    | .int n => .int (n + 1)
    | .float x => .float x.addOne
    | v => v

/-- The bookmark after one more visit. -/
def visited (b : Bookmark) (now : Instant) : Except Failure Bookmark :=
  b.replace [.visitCount (nextVisit b.visitCount), .lastVisited (some now)]

/-- Whether two bookmarks agree in every field. -/
def same (a b : Bookmark) : Bool :=
  a.locator == b.locator && a.title.same b.title && a.notes.same b.notes &&
    a.image.same b.image && a.tags.same b.tags && a.color.same b.color &&
    a.created == b.created && a.modified == b.modified && a.lastVisited == b.lastVisited &&
    a.visitCount.same b.visitCount

/-- The bookmark in a line: its URL and, where it has one, its title. -/
def line (b : Bookmark) : String :=
  if b.title.isBlank then b.url else b.url ++ " " ++ String.ofList b.title.shown

end Bookmark

end LinkShelf
