import LinkShelf.Bookmark.Basic

/-!
Orders of bookmarks by one field. Bookmarks that lack the field come last in a descending order and
first in an ascending one; bookmarks that agree in the field keep their order.
-/

namespace LinkShelf

/-- The fields that bookmarks are ordered by. -/
inductive SortField where
  | created
  | lastVisited
  | modified
  | visitCount
  | title
  | url
  deriving DecidableEq, Repr

/-- What bookmarks are compared by. -/
inductive SortKey where
  | moment (t : Instant)
  | count (n : Numeric)
  | title (folded plain : String)
  | url (s : String)
  deriving DecidableEq, Repr

namespace SortKey

/-- How two keys of one field compare. -/
def compare : SortKey → SortKey → Ordering
  | .moment a, .moment b => Ord.compare a b
  | .count a, .count b => (a.compare? b).getD .eq
  | .title a a', .title b b' => (Ord.compare a b).then (Ord.compare a' b')
  | .url a, .url b => Ord.compare a b
  | _, _ => .eq

end SortKey

/-- The key of a bookmark, if it has the field. A title that is no text has none that could be
compared. -/
def SortField.key (f : SortField) (b : Bookmark) : Except Failure (Option SortKey) :=
  match f with
  | .created => .ok (b.created.map .moment)
  | .lastVisited => .ok (b.lastVisited.map .moment)
  | .modified => .ok (b.modified.map .moment)
  | .visitCount => .ok (b.visitCount.numeric?.map .count)
  | .title =>
    match b.title with
    | .text s => .ok (some (.title (String.ofList (Text.foldCase s.toList)) s))
    | _ => .error .noSuchOperation
  | .url => .ok (some (.url b.url))

/-- An order of bookmarks. -/
structure SortOrder where
  name : String
  field : SortField
  descending : Bool
  deriving DecidableEq, Repr

namespace SortOrder

/-- The order the other way round. -/
def reversed (o : SortOrder) (name : Option String) : SortOrder :=
  { o with
    name := match name with
      | some n => if n.isEmpty then "reversed-" ++ o.name else n
      | none => "reversed-" ++ o.name
    descending := !o.descending }

/-- Whether a key may stand before another one. -/
def allows (o : SortOrder) (a b : SortKey) : Bool :=
  if o.descending then a.compare b != .lt else a.compare b != .gt

/-- The bookmarks in order. -/
def sort (o : SortOrder) (bookmarks : List Bookmark) : Except Failure (List Bookmark) := do
  let keyed ← bookmarks.mapM fun b => do return (← o.field.key b, b)
  let present := keyed.filterMap fun (key, b) => key.map fun k => (k, b)
  let missing := keyed.filterMap fun (key, b) => if key.isNone then some b else none
  let ordered := (present.mergeSort fun x y => o.allows x.1 y.1).map (·.2)
  return if o.descending then ordered ++ missing else missing ++ ordered

def mostRecentlyCreated : SortOrder := ⟨"most-recently-created", .created, true⟩
def mostRecentlyVisited : SortOrder := ⟨"most-recently-visited", .lastVisited, true⟩
def mostRecentlyModified : SortOrder := ⟨"most-recently-modified", .modified, true⟩
def mostVisited : SortOrder := ⟨"most-visited", .visitCount, true⟩
def byTitle : SortOrder := ⟨"title", .title, false⟩
def byUrl : SortOrder := ⟨"url", .url, false⟩

/-- An order that is named for what it puts first, and the same the other way round. -/
def withReverse (o : SortOrder) (rest : String) : List SortOrder :=
  [o, o.reversed (some ("least-" ++ rest))]

/-- All orders that a query can name. -/
def all : List SortOrder :=
  mostRecentlyCreated.withReverse "recently-created" ++
  mostRecentlyVisited.withReverse "recently-visited" ++
  mostRecentlyModified.withReverse "recently-modified" ++
  mostVisited.withReverse "visited" ++
  [byTitle, byUrl]

/-- The order of a name. -/
def named? (name : String) : Option SortOrder := all.find? fun o => o.name == name

end SortOrder

end LinkShelf
