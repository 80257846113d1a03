import LinkShelf.Bookmark.Record
import LinkShelf.Text.Blank

/-!
Listings: bookmarks as they are printed, in a line or with all their details.
-/

namespace LinkShelf.Bookmark

open Text

/-- The tags in order, which all have to be texts. -/
def tagTexts (b : Bookmark) : Except Failure (List String) :=
  match b.tags with
  | .names set => .ok set.names
  | .other v => do
    (← Json.sorted (← v.items)).mapM fun tag =>
      match tag with
      | .text s => .ok s
      | tag => .error (.kind (.notJoinable 0 tag.kind.name))

/-- The title as a part of a line, which has to be a text. -/
def titleParts (b : Bookmark) : Except Failure (List String) :=
  if b.title.isBlank then .ok []
  else
    match b.title with
    | .text s => .ok [s]
    | v => .error (.kind (.notJoinable 1 v.kind.name))

/-- The bookmark in a line: URL, title and tags. -/
def listLine (b : Bookmark) : Except Failure String := do
  let tags ← b.tagTexts
  let tagPart :=
    if b.tags.isBlank then [] else [String.intercalate " " (tags.map fun t => "#" ++ t)]
  return String.intercalate "  " ([b.url] ++ (← b.titleParts) ++ tagPart)

/-- A line with a label, for a value that is not blank. -/
def labelled (label : String) (v : Json) : List String :=
  if v.isBlank then [] else [label ++ ": " ++ String.ofList v.shown]

/-- A line with a label, for a moment. -/
def labelledMoment (label : String) : Option Instant → List String
  | some t => [label ++ ": " ++ t.recordText]
  | none => []

/-- The notes after an empty line, without white space at their end. -/
def noteLines (b : Bookmark) : Except Failure (List String) :=
  if b.notes.isBlank then .ok []
  else
    match b.notes with
    | .text s => .ok ["", String.ofList (stripEnd s.toList)]
    | _ => .error .noSuchOperation

/-- The bookmark with all details, each on a line. -/
def details (b : Bookmark) : Except Failure String := do
  let tags ← b.tagTexts
  let notes ← b.noteLines
  return String.intercalate "\n" (
    ["url: " ++ b.url] ++
    labelled "title" b.title ++
    (if b.tags.isBlank then [] else ["tags: " ++ String.intercalate ", " tags]) ++
    labelled "color" b.color ++
    labelledMoment "created" b.created ++
    labelledMoment "modified" b.modified ++
    labelledMoment "last-visited" b.lastVisited ++
    (if b.visitCount.isNull then [] else ["visit-count: " ++ String.ofList b.visitCount.shown]) ++
    notes)

end LinkShelf.Bookmark
