import LinkShelf.Bookmark.Order
import LinkShelf.Query.Term

/-!
Stages: what a query term does to a list of bookmarks. A stage keeps the bookmarks that pass a test,
puts them in order, or cuts the list off.
-/

namespace LinkShelf

/-- The moments of a bookmark that queries ask about. -/
inductive DateField where
  | created
  | lastVisited
  | modified
  deriving DecidableEq, Repr

def DateField.of : DateField → Bookmark → Option Instant
  | .created, b => b.created
  | .lastVisited, b => b.lastVisited
  | .modified, b => b.modified

/-- A test of a bookmark. -/
inductive Filter where
  | untagged
  | anyTag
  | tag (name : String)
  | site (name : String)
  | visits (op : Comparison) (count : Int)
  | day (field : DateField) (op : Comparison) (date : Date)
  | custom (holds : Bookmark → Except Failure Bool)

/-- Whether a host is a site or lies in it: the site's name ends the host's at a full stop. -/
def isWithinSite (site host : List Char) : Bool :=
  host == site || ('.' :: site).isSuffixOf host

/-- The date of a moment in a time zone. -/
def localDate (zone : Zone) (t : Instant) : Except Failure Date :=
  match t.localDate? zone with
  | some d => .ok d
  | none => .error .noLocalDate

namespace Filter

/-- Whether a bookmark passes a test. Dates are those of the time zone; a missing field passes
none. -/
def holds (zone : Zone) : Filter → Bookmark → Except Failure Bool
  | .untagged, b => .ok b.tags.isBlank
  | .anyTag, b => .ok !b.tags.isBlank
  | .tag name, b => b.tags.holds name
  | .site name, b =>
    .ok (match b.locator.host? with
      | some host => isWithinSite name.toList host.toList
      | none => false)
  | .visits op count, b =>
    if b.visitCount.isNull then .ok false else b.visitCount.compareValues op (.int count)
  | .day field op date, b =>
    match field.of b with
    | none => .ok false
    | some t => do return op.holds (compare (← localDate zone t) date)
  | .custom test, b => test b

end Filter

/-- What a term does to a list of bookmarks. -/
inductive Stage where
  | keep (test : Filter)
  | sort (order : SortOrder)
  | limit (count : Nat)

namespace Stage

/-- The list of bookmarks that a stage makes of another. -/
def run (zone : Zone) : Stage → List Bookmark → Except Failure (List Bookmark)
  | .keep test, bookmarks => bookmarks.filterM fun b => test.holds zone b
  | .sort order, bookmarks => order.sort bookmarks
  | .limit count, bookmarks => .ok (bookmarks.take count)

end Stage

end LinkShelf
