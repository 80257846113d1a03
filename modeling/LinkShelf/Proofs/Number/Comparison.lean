import LinkShelf.Json.Compare
import Mathlib.Tactic.Ring

/-!
The order of numbers: a comparison the other way round, and comparisons in a chain. What is not a
number has no place in the order.
-/

namespace LinkShelf

namespace DyadicValue

theorem compare_swap (a b : DyadicValue) : (a.compare b).swap = b.compare a := Int.compare_swap _ _

theorem isLE_compare (a b : DyadicValue) :
    (a.compare b).isLE ↔
      a.num * (Nat.pow 2 b.scale : Nat) ≤ b.num * (Nat.pow 2 a.scale : Nat) :=
  Int.isLE_compare

theorem isLE_compare_trans {a b c : DyadicValue} (hab : (a.compare b).isLE)
    (hbc : (b.compare c).isLE) : (a.compare c).isLE := by
  rw [isLE_compare] at hab hbc ⊢
  have hpos (n : Nat) : (0 : Int) < (Nat.pow 2 n : Nat) :=
    Int.natCast_pos.mpr (Nat.pow_pos Nat.two_pos)
  refine Int.le_of_mul_le_mul_right ?_ (hpos b.scale)
  calc
    _ = a.num * (Nat.pow 2 b.scale : Nat) * (Nat.pow 2 c.scale : Nat) := by ring
    _ ≤ b.num * (Nat.pow 2 a.scale : Nat) * (Nat.pow 2 c.scale : Nat) :=
      Int.mul_le_mul_of_nonneg_right hab (Int.le_of_lt (hpos c.scale))
    _ = b.num * (Nat.pow 2 c.scale : Nat) * (Nat.pow 2 a.scale : Nat) := by ring
    _ ≤ c.num * (Nat.pow 2 b.scale : Nat) * (Nat.pow 2 a.scale : Nat) :=
      Int.mul_le_mul_of_nonneg_right hbc (Int.le_of_lt (hpos a.scale))
    _ = _ := by ring

end DyadicValue

namespace Numeric

/-- The order of two numbers; one that is not a number is on a par with every other. -/
def order (a b : Numeric) : Ordering := (a.compare? b).getD .eq

theorem order_swap (a b : Numeric) : (a.order b).swap = b.order a := by
  cases a with
  | finite a =>
      cases b with
      | finite b => exact DyadicValue.compare_swap a b
      | infinite negative => cases negative <;> rfl
      | notANumber => rfl
  | infinite negative =>
      cases b with
      | finite b => cases negative <;> rfl
      | infinite other => cases negative <;> cases other <;> rfl
      | notANumber => rfl
  | notANumber => cases b <;> rfl

theorem isLE_order_trans {a b c : Numeric} (hb : b ≠ .notANumber) (hab : (a.order b).isLE)
    (hbc : (b.order c).isLE) : (a.order c).isLE := by
  cases c with
  | notANumber => cases a <;> rfl
  | finite c =>
      cases b with
      | notANumber => exact absurd rfl hb
      | finite b =>
          cases a with
          | finite a => exact DyadicValue.isLE_compare_trans hab hbc
          | infinite negative => exact hab
          | notANumber => rfl
      | infinite lowest =>
          cases lowest with
          | false => cases hbc
          | true =>
              cases a with
              | finite a => cases hab
              | infinite negative => cases negative <;> [cases hab; rfl]
              | notANumber => rfl
  | infinite negative =>
      cases negative with
      | false =>
          cases a with
          | infinite other => cases other <;> rfl
          | finite a => rfl
          | notANumber => rfl
      | true =>
          cases b with
          | notANumber => exact absurd rfl hb
          | finite b => cases hbc
          | infinite lowest =>
              cases lowest with
              | false => cases hbc
              | true => exact hab

end Numeric

end LinkShelf
