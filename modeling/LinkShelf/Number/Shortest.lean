import LinkShelf.Number.Binary64

/-!
Floating-point numbers in base ten with the fewest digits that read back as the same number.
Between 0.0001 and 10 ^ 16 the point is written in its place; other numbers have an exponent.
-/

namespace LinkShelf.Binary64

/-- The exponent of the leading digit of `num / den` in base ten. -/
def leadingExponent (num den : Nat) : Int :=
  if den ≤ num then ((Nat.toDigits 10 (num / den)).length : Int) - 1
  else -((Nat.toDigits 10 ((den - 1) / num)).length : Int)

/-- The multiple of `10 ^ k` next to `num / den` that reads back as `x`, if there is one; of two,
the nearer, and at a tie the even one. -/
def gridHit? (x : Binary64) (num den : Nat) (k : Int) : Option Nat :=
  let (n, d) :=
    if 0 ≤ k then (num, den * Nat.pow 10 k.toNat) else (num * Nat.pow 10 (-k).toNat, den)
  let q := n / d
  let below := ofDecimal false q k == x
  let above := ofDecimal false (q + 1) k == x
  if below && above then some (roundedQuotient n d)
  else if below then some q
  else if above then some (q + 1)
  else none

/-- The digits and the exponent of the shortest decimal that reads back as `x`, looked for among
those with `count` digits and more, in `fuel` steps. -/
def shortestFrom (x : Binary64) (num den : Nat) (lead : Int) : Nat → Nat → Nat × Int
  | 0, _ => (num / den, 0)
  | fuel + 1, count =>
    let k := lead - (count - 1)
    match gridHit? x num den k with
    | some digits => (digits, k)
    | none => shortestFrom x num den lead fuel (count + 1)

/-- The digits, without zeros at the end, and the exponent of the leading digit of a positive
finite number. -/
def shortestDigits (m : Nat) (e : Int) : List Char × Int :=
  let (num, den) := if 0 ≤ e then (m * Nat.pow 2 e.toNat, 1) else (m, Nat.pow 2 (-e).toNat)
  let (digits, k) := shortestFrom (.finite false m e) num den (leadingExponent num den) 17 1
  let text := Nat.toDigits 10 digits
  let kept := (text.reverse.dropWhile (· == '0')).reverse
  (kept, k + text.length - 1)

/-- Digits and the exponent of the leading one as a decimal text. -/
def decimalText (digits : List Char) (lead : Int) : List Char :=
  if -4 ≤ lead ∧ lead < 16 then
    if 0 ≤ lead then
      let whole := digits.take (lead.toNat + 1)
      let fraction := digits.drop (lead.toNat + 1)
      whole ++ List.replicate (lead.toNat + 1 - whole.length) '0' ++
        '.' :: (if fraction.isEmpty then ['0'] else fraction)
    else '0' :: '.' :: List.replicate ((-lead).toNat - 1) '0' ++ digits
  else
    let exponent := Nat.toDigits 10 lead.natAbs
    let mark := if lead < 0 then '-' else '+'
    (match digits with
      | [] => []
      | [d] => [d]
      | d :: ds => d :: '.' :: ds) ++
      'e' :: mark :: List.replicate (2 - exponent.length) '0' ++ exponent

/-- A floating-point number in base ten. -/
def shortestText : Binary64 → List Char
  | .finite negative m e =>
    let magnitude :=
      if m = 0 then ['0', '.', '0']
      else
        let (digits, lead) := shortestDigits m e
        decimalText digits lead
    if negative then '-' :: magnitude else magnitude
  | .infinite negative => if negative then "-inf".toList else "inf".toList
  | .notANumber => "nan".toList

end LinkShelf.Binary64
