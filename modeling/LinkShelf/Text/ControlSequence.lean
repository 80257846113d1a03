/-!
Control sequences: what a text says to a terminal. One is an escape character, an opening bracket,
digits, semicolons and question marks, and a letter. Main statement: a text without escape
characters has none of them (`withoutControls_eq_self`).
-/

namespace LinkShelf.Text

def escapeChar : Char := '\x1b'

/-- Whether a character may stand between the opening bracket and the letter. -/
def isControlParameter (c : Char) : Bool := c.isDigit || c = ';' || c = '?'

/-- The text without the control sequences in it. What may yet become one is held back, the last
character first, until it does or does not. -/
def dropControls : List Char → List Char → List Char
  | held, [] => held.reverse
  | [], c :: cs => if c = escapeChar then dropControls [c] cs else c :: dropControls [] cs
  | held, c :: cs =>
    if c = escapeChar then held.reverse ++ dropControls [c] cs
    else if held = [escapeChar] then
      if c = '[' then dropControls (c :: held) cs else held.reverse ++ c :: dropControls [] cs
    else if isControlParameter c then dropControls (c :: held) cs
    else if c.isAlpha then dropControls [] cs
    else held.reverse ++ c :: dropControls [] cs

/-- The text without the control sequences in it. -/
def withoutControls (s : String) : String := String.ofList (dropControls [] s.toList)

theorem dropControls_eq_self {cs : List Char} (h : ∀ c ∈ cs, c ≠ escapeChar) :
    dropControls [] cs = cs := by
  induction cs with
  | nil => rfl
  | cons c cs ih =>
    have hc : c ≠ escapeChar := h c (by simp)
    have hcs : ∀ d ∈ cs, d ≠ escapeChar := fun d hd => h d (by simp [hd])
    simp [dropControls, hc, ih hcs]

theorem withoutControls_eq_self {s : String} (h : ∀ c ∈ s.toList, c ≠ escapeChar) :
    withoutControls s = s := by
  simp [withoutControls, dropControls_eq_self h]

end LinkShelf.Text
