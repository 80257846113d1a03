import LinkShelf.Text.Case.LowerTable
import LinkShelf.Text.Case.FoldTable
import LinkShelf.Text.Case.ContextTable

/-!
Lower case and case folding of texts. Folding acts character by character (`foldCase_append`), so
that texts differing in case alone fold to the same text. Lower case depends on the context in one
place: a capital sigma that ends a word becomes a final sigma.
-/

namespace LinkShelf.Text

/-- Whether a code point lies in one of the ranges. -/
def inRanges (rows : List (Nat × Nat)) (n : Nat) : Bool :=
  rows.any fun r => r.1 ≤ n && n ≤ r.2

/-- The lower-case form of a character outside any context. -/
def lowerChar (c : Char) : List Char :=
  if c.toNat = 0x130 then ['i', Char.ofNat 0x307]
  else
    match CaseRange.find? lowerRanges c.toNat with
    | some n => [Char.ofNat n]
    | none => [c]

/-- Whether the first character that is not looked through is a letter with case. -/
def meetsCased : List Char → Bool
  | [] => false
  | c :: cs =>
    if inRanges caseIgnorableRanges c.toNat then meetsCased cs
    else inRanges casedRanges c.toNat

/-- Lower case of a text; `before` holds the characters in front of it, the nearest first. A
capital sigma after a letter and not before one takes its final form. -/
def lowerAfter (before : List Char) : List Char → List Char
  | [] => []
  | c :: cs =>
    if c.toNat = 0x3A3 then
      (if meetsCased before && !meetsCased cs then Char.ofNat 0x3C2 else Char.ofNat 0x3C3) ::
        lowerAfter (c :: before) cs
    else lowerChar c ++ lowerAfter (c :: before) cs

/-- The lower-case form of a text. -/
def lower (cs : List Char) : List Char := lowerAfter [] cs

/-- The case folding of a character. -/
def foldChar (c : Char) : List Char :=
  match foldExpansions.lookup c.toNat with
  | some ns => ns.map Char.ofNat
  | none =>
    match CaseRange.find? foldRanges c.toNat with
    | some n => [Char.ofNat n]
    | none => [c]

/-- The case folding of a text, for comparison without regard to case. -/
def foldCase (cs : List Char) : List Char := cs.flatMap foldChar

@[simp] theorem foldCase_nil : foldCase [] = [] := rfl

@[simp] theorem foldCase_cons (c : Char) (cs : List Char) :
    foldCase (c :: cs) = foldChar c ++ foldCase cs := rfl

/-- Folding acts on each part of a text on its own. -/
@[simp] theorem foldCase_append (a b : List Char) :
    foldCase (a ++ b) = foldCase a ++ foldCase b := by
  simp [foldCase]

end LinkShelf.Text
