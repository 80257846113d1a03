/-!
Binary floating-point numbers of 64 bits with exact arithmetic on their values. Every result is the
exact one rounded once, to the nearest number and at a tie to the one with an even mantissa
(`Binary64.ofRatio`).
-/

namespace LinkShelf

/-- A binary floating-point number. A finite one is `mantissa * 2 ^ exponent` with its sign, where
the mantissa has 53 bits or the exponent is the least. -/
inductive Binary64 where
  | finite (negative : Bool) (mantissa : Nat) (exponent : Int)
  | infinite (negative : Bool)
  | notANumber
  deriving DecidableEq, Repr

namespace Binary64

def leastExponent : Int := -1074
def greatestExponent : Int := 971

def zero (negative : Bool) : Binary64 := .finite negative 0 leastExponent

/-- A quotient as numerator and denominator, divided by a power of two. -/
def scaled (num den : Nat) (e : Int) : Nat × Nat :=
  if 0 ≤ e then (num, den * Nat.pow 2 e.toNat) else (num * Nat.pow 2 (-e).toNat, den)

/-- The integer nearest to a quotient; of two, the even one. -/
def roundedQuotient (num den : Nat) : Nat :=
  let q := num / den
  let r := num % den
  if den < 2 * r ∨ (den = 2 * r ∧ q % 2 = 1) then q + 1 else q

/-- The exponent at which a quotient has 53 bits before the point, or the least exponent. -/
def exponentFor (num den : Nat) : Int :=
  let e : Int := (num.log2 : Int) - den.log2 - 52
  let (n, d) := scaled num den e
  max (if n / d < Nat.pow 2 52 then e - 1 else e) leastExponent

/-- The number nearest to the quotient of two naturals. -/
def ofRatio (negative : Bool) (num den : Nat) : Binary64 :=
  if num = 0 then zero negative
  else
    let e := exponentFor num den
    let (n, d) := scaled num den e
    let m := roundedQuotient n d
    let (m, e) := if m = Nat.pow 2 53 then (Nat.pow 2 52, e + 1) else (m, e)
    if greatestExponent < e then .infinite negative else .finite negative m e

/-- The number nearest to `digits * 10 ^ exponent`. -/
def ofDecimal (negative : Bool) (digits : Nat) (exponent : Int) : Binary64 :=
  let places : Int := exponent + (Nat.toDigits 10 digits).length
  if digits = 0 then zero negative
  else if 310 < places then .infinite negative
  else if places < -330 then zero negative
  else if 0 ≤ exponent then ofRatio negative (digits * Nat.pow 10 exponent.toNat) 1
  else ofRatio negative digits (Nat.pow 10 (-exponent).toNat)

/-- An integer divided by a positive natural. -/
def ofIntDiv (n : Int) (den : Nat) : Binary64 := ofRatio (n < 0) n.natAbs den

end Binary64

/-- A number `num / 2 ^ scale`. -/
structure DyadicValue where
  num : Int
  scale : Nat
  deriving DecidableEq, Repr

namespace DyadicValue

def ofInt (n : Int) : DyadicValue := ⟨n, 0⟩

def compare (a b : DyadicValue) : Ordering :=
  Ord.compare (a.num * (Nat.pow 2 b.scale : Nat)) (b.num * (Nat.pow 2 a.scale : Nat))

/-- The integer next to the number in the direction of zero. -/
def truncate (a : DyadicValue) : Int := a.num.tdiv (Nat.pow 2 a.scale : Nat)

/-- The integer nearest to the number; of two, the even one. -/
def round (a : DyadicValue) : Int :=
  let q := Binary64.roundedQuotient a.num.natAbs (Nat.pow 2 a.scale)
  if a.num < 0 then -q else q

/-- The sum of two numbers. -/
def add (a b : DyadicValue) : DyadicValue :=
  ⟨a.num * (Nat.pow 2 b.scale : Nat) + b.num * (Nat.pow 2 a.scale : Nat), a.scale + b.scale⟩

/-- The binary floating-point number nearest to the number. -/
def toBinary64 (a : DyadicValue) : Binary64 :=
  .ofRatio (a.num < 0) a.num.natAbs (Nat.pow 2 a.scale)

end DyadicValue

namespace Binary64

/-- The exact value of a finite number. -/
def value? : Binary64 → Option DyadicValue
  | .finite negative m e =>
    let n : Int := if negative then -(m : Int) else m
    some (if 0 ≤ e then ⟨n * (Nat.pow 2 e.toNat : Nat), 0⟩ else ⟨n, (-e).toNat⟩)
  | .infinite _ => none
  | .notANumber => none

/-- The number divided by a positive natural. -/
def divNat (x : Binary64) (k : Nat) : Binary64 :=
  match x with
  | .finite negative m e =>
    if 0 ≤ e then ofRatio negative (m * Nat.pow 2 e.toNat) k
    else ofRatio negative m (k * Nat.pow 2 (-e).toNat)
  | .infinite negative => .infinite negative
  | .notANumber => .notANumber

/-- The number increased by one. -/
def addOne (x : Binary64) : Binary64 :=
  match x.value? with
  | some v => (v.add (.ofInt 1)).toBinary64
  | none => x

/-- Whether the number is zero, of either sign. -/
def isZero : Binary64 → Bool
  | .finite _ m _ => m == 0
  | _ => false

end Binary64

end LinkShelf
