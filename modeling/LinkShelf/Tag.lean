import LinkShelf.Text.Blank
import LinkShelf.Text.Case
import LinkShelf.Text.Pieces

/-!
Tags: names without regard to case, and finite sets of them kept in the order of their code points.
-/

namespace LinkShelf

/-- A finite set of tag names, in increasing order. -/
structure TagSet where
  names : List String
  sorted : names.Pairwise (· < ·)
  deriving DecidableEq, Repr

namespace Tag

open Text

/-- The normal form of a tag name: no white space at the ends, and its case folding. A blank name
has none. -/
def normalize? (name : String) : Option String :=
  match foldCase (strip name.toList) with
  | [] => none
  | cs => some (String.ofList cs)

/-- Whether a character stands between tag names in a text. -/
def isSeparator (c : Char) : Bool := c = ',' || isBlank c

/-- The tag names written in a text, in order and with repetitions. -/
def namesIn (text : String) : List String :=
  ((pieces isSeparator text.toList).filter fun piece => !piece.isEmpty).map fun piece =>
    String.ofList (foldCase piece)

end Tag

namespace TagSet

/-- A sorted list with one more name, in its place. -/
def insertSorted (name : String) : List String → List String
  | [] => [name]
  | first :: rest =>
    if name < first then name :: first :: rest
    else if first < name then first :: insertSorted name rest
    else first :: rest

theorem mem_insertSorted {name other : String} {names : List String} :
    other ∈ insertSorted name names ↔ other = name ∨ other ∈ names := by
  induction names with
  | nil => simp [insertSorted]
  | cons first rest ih =>
    rw [insertSorted]
    split
    · simp
    · split
      · simp only [List.mem_cons, ih]
        constructor
        · rintro (h | h | h) <;> simp [h]
        · rintro (h | h | h) <;> simp [h]
      · rename_i h₁ h₂
        have : name = first := by
          apply String.le_antisymm
          · exact String.not_lt.1 h₂
          · exact String.not_lt.1 h₁
        subst this
        simp

theorem pairwise_insertSorted {name : String} {names : List String}
    (h : names.Pairwise (· < ·)) : (insertSorted name names).Pairwise (· < ·) := by
  induction names with
  | nil => simp [insertSorted]
  | cons first rest ih =>
    rw [List.pairwise_cons] at h
    rw [insertSorted]
    split
    · rename_i hlt
      refine List.pairwise_cons.2 ⟨?_, List.pairwise_cons.2 h⟩
      intro other hother
      rcases List.mem_cons.1 hother with rfl | hother
      · exact hlt
      · exact String.lt_trans hlt (h.1 other hother)
    · split
      · rename_i hlt
        refine List.pairwise_cons.2 ⟨?_, ih h.2⟩
        intro other hother
        rcases mem_insertSorted.1 hother with rfl | hother
        · exact hlt
        · exact h.1 other hother
      · exact List.pairwise_cons.2 h

def empty : TagSet := ⟨[], List.Pairwise.nil⟩

def insert (name : String) (tags : TagSet) : TagSet :=
  ⟨insertSorted name tags.names, pairwise_insertSorted tags.sorted⟩

/-- The set of the names in a list. -/
def ofList (names : List String) : TagSet := names.foldl (fun tags name => tags.insert name) empty

def isEmpty (tags : TagSet) : Bool := tags.names.isEmpty

def contains (tags : TagSet) (name : String) : Bool := tags.names.contains name

/-- The tags written in a text, with commas or white space between. -/
def ofText (text : String) : TagSet := ofList (Tag.namesIn text)

theorem mem_insert {name other : String} {tags : TagSet} :
    other ∈ (tags.insert name).names ↔ other = name ∨ other ∈ tags.names :=
  mem_insertSorted

private theorem mem_foldl_insert {names : List String} {tags : TagSet} {name : String} :
    name ∈ (names.foldl (fun tags name => tags.insert name) tags).names ↔
      name ∈ tags.names ∨ name ∈ names := by
  induction names generalizing tags with
  | nil => simp
  | cons first rest ih =>
    rw [List.foldl_cons, ih, mem_insert, List.mem_cons]
    constructor
    · rintro ((h | h) | h) <;> simp [h]
    · rintro (h | h | h) <;> simp [h]

/-- The set of a list has exactly the names in it. -/
@[simp] theorem mem_ofList {names : List String} {name : String} :
    name ∈ (ofList names).names ↔ name ∈ names := by
  rw [ofList, mem_foldl_insert]
  simp [empty]

end TagSet

end LinkShelf
