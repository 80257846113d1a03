/-!
Rows of a one-to-one case mapping: a row moves every `step`-th code point between its ends by the
same distance. `CaseRange.find?` is the code point that the first row holding a code point gives.
-/

namespace LinkShelf.Text

/-- A run of code points, `step` apart, that a case mapping moves by `shift`. -/
structure CaseRange where
  first : Nat
  last : Nat
  step : Nat
  shift : Int
  deriving DecidableEq, Repr

/-- Whether a row moves the code point. -/
def CaseRange.holds (r : CaseRange) (n : Nat) : Bool :=
  r.first ≤ n && n ≤ r.last && (n - r.first) % r.step == 0

/-- The code point that the first row holding `n` moves it to. -/
def CaseRange.find? : List CaseRange → Nat → Option Nat
  | [], _ => none
  | r :: rows, n => if r.holds n then some (n + r.shift).toNat else find? rows n

theorem CaseRange.find?_nil (n : Nat) : find? [] n = none := rfl

theorem CaseRange.find?_cons (r : CaseRange) (rows : List CaseRange) (n : Nat) :
    find? (r :: rows) n = if r.holds n then some (n + r.shift).toNat else find? rows n := rfl

end LinkShelf.Text
