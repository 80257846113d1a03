import LinkShelf.Text.Pieces

/-!
Dot segments of a path: `.` stays where it is and `..` takes one segment back. Removing them leaves
an equivalent path without them.
-/

namespace LinkShelf.Url

open Text

/-- The segments kept so far, the last one first, after one more segment. A `..` takes back the
segment before it unless that is empty. -/
def takeSegment (kept : List (List Char)) (segment : List Char) : List (List Char) :=
  if segment = ['.'] then kept
  else if segment = ['.', '.'] then
    match kept with
    | [] => []
    | last :: rest => if last.isEmpty then last :: rest else rest
  else segment :: kept

/-- The path without dot segments; a path that starts with a slash still does. -/
def resolveDotSegments (path : List Char) : List Char :=
  let kept := ((pieces (· == '/') path).foldl takeSegment []).reverse
  let resolved := joinWith ['/'] kept
  if path.head? = some '/' && resolved.head? != some '/' then '/' :: resolved else resolved

end LinkShelf.Url
