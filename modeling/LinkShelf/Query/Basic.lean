import LinkShelf.Journal.Event
import LinkShelf.Query.Action

/-!
Queries: terms compiled to stages that run one after the other. All terms are compiled before any
stage runs, so a term that is refused refuses the query.
-/

namespace LinkShelf

/-- A compiled query. -/
structure Query where
  terms : List Term
  stages : List Stage

namespace Query

/-- The query of some terms. -/
def ofTerms (r : Registry) (present : Present) (terms : List Term) : Except Failure Query := do
  return ⟨terms, ← terms.mapM fun t => r.compile present t⟩

/-- The query that a text writes. -/
def ofText (r : Registry) (present : Present) (text : String) : Except Failure Query :=
  match Term.ofText text with
  | .ok terms => ofTerms r present terms
  | .error fault => .error (.query fault)

/-- The query as it is written. -/
def text (q : Query) : String := String.intercalate " " (q.terms.map Term.text)

/-- The bookmarks that a query gives: the stages run in order, each on what the one before gave. -/
def run (zone : Zone) (q : Query) (bookmarks : List Bookmark) : Except Failure (List Bookmark) :=
  q.stages.foldlM (fun found stage => stage.run zone found) bookmarks

/-- The report of how many bookmarks a query gave. -/
def matched (q : Query) (found : List Bookmark) : Event :=
  ⟨.debug, "tagmarks.query",
    "Query " ++ quote q.text ++ " matched " ++ String.ofList (Nat.toDigits 10 found.length) ++
      " bookmarks", []⟩

end Query

end LinkShelf
