import LinkShelf.Bookmark.Basic

/-!
Records: bookmarks as JSON objects. Fields without a value are left out when a record is written;
dates are accepted in many forms and written in one.
-/

namespace LinkShelf

namespace Json

/-- The order of values that a sorted list shows. -/
def insertOrdered (v : Json) : List Json → Except Failure (List Json)
  | [] => .ok [v]
  | w :: rest => do
    if ← v.compareValues .less w then return v :: w :: rest
    return w :: (← insertOrdered v rest)

/-- The values in increasing order, if they can be compared. Equal ones keep their order. -/
def sorted (items : List Json) : Except Failure (List Json) :=
  items.foldlM (fun found v => insertOrdered v found) []

end Json

namespace Timestamp

/-- The moment that a value of a record names; `null` and the empty text name none. -/
def ofJson : Json → Except Failure (Option Instant)
  | .null => .ok none
  | .text "" => .ok none
  | v =>
    match read? v with
    | some (.ok t) => .ok (some t)
    | some (.error fault) => .error (.timestamp fault)
    | none => .error .noSuchOperation

end Timestamp

namespace Bookmark

/-- A member for a value that is not blank. -/
def memberUnlessBlank (name : String) (v : Json) : List (String × Json) :=
  if v.isBlank then [] else [(name, v)]

/-- A member for a moment. -/
def memberAt (name : String) : Option Instant → List (String × Json)
  | some t => [(name, .text t.recordText)]
  | none => []

/-- The record of a bookmark. -/
def toRecord (b : Bookmark) : Except Failure Json := do
  let tags ← match b.tags with
    | .names set => .ok (set.names.map Json.text)
    | .other v => do Json.sorted (← v.items)
  return .object (
    [("url", .text b.url), ("title", b.title), ("tags", .list tags)] ++
    memberUnlessBlank "notes" b.notes ++
    memberUnlessBlank "imageUrl" b.image ++
    memberUnlessBlank "color" b.color ++
    memberAt "created" b.created ++
    memberAt "modified" b.modified ++
    memberAt "lastVisited" b.lastVisited ++
    (if b.visitCount.isNull then [] else [("visitCount", b.visitCount)]))

/-- The visit count of a record. -/
def visitCountOf : Json → Except Failure Json
  | .null => .ok .null
  | v => do return .int (← v.toInteger)

/-- The bookmark that a record holds. -/
def ofRecord : Json → Except Failure Bookmark
  | .object members => do
    let member (name : String) : Json := (members.lookup name).getD .null
    let some url := members.lookup "url" | throw (.missingMember "url")
    let created ← Timestamp.ofJson (member "created")
    let modified ← Timestamp.ofJson (member "modified")
    let lastVisited ← Timestamp.ofJson (member "lastVisited")
    let visitCount ← visitCountOf (member "visitCount")
    of url {
      title := (member "title").orElse (.text "")
      notes := (member "notes").orElse (.text "")
      image := (member "imageUrl").orElse .null
      tags := member "tags"
      color := member "color"
      created, modified, lastVisited, visitCount }
  | _ => .error .noSuchOperation

end Bookmark

end LinkShelf
