import LinkShelf.Number.Binary64
import LinkShelf.Proofs.Number.Digits
import Mathlib.Algebra.Order.Ring.Nat
import Mathlib.Tactic.Ring

/-!
How great the numbers are that are read. Main statements: digits write a number below the power of
ten of their count (`numberOf_lt`), so integers that are read are not oversized
(`isOversized_of_readInteger`), and neither are the whole parts of floating-point numbers that are
read (`isOversized_of_ofDecimal`).
-/

namespace LinkShelf

namespace Number

open Text

theorem foldl_digits_lt (digits : List Char) (n : Nat) :
    digits.foldl (fun n c => 10 * n + (digitValue? c).getD 0) n <
      (n + 1) * 10 ^ digits.length := by
  induction digits generalizing n with
  | nil => simp
  | cons c digits ih =>
      have hdigit : (digitValue? c).getD 0 < 10 := by
        cases hc : digitValue? c with
        | none => simp
        | some d => exact digitValue?_lt hc
      calc
        _ < (10 * n + (digitValue? c).getD 0 + 1) * 10 ^ digits.length := ih _
        _ ≤ (10 * (n + 1)) * 10 ^ digits.length := Nat.mul_le_mul_right _ (by omega)
        _ = (n + 1) * 10 ^ (c :: digits).length := by rw [List.length_cons, pow_succ]; ring

theorem numberOf_lt (digits : List Char) : numberOf digits < 10 ^ digits.length := by
  have hlt := foldl_digits_lt digits 0
  rwa [Nat.zero_add, Nat.one_mul] at hlt

theorem isOversized_eq_false_iff {n : Int} :
    isOversized n = false ↔ n.natAbs < 10 ^ maxDigits := by
  rw [isOversized, decide_eq_false_iff_not, Nat.not_le, Nat.pow_eq]

theorem isOversized_of_digits {digits : List Char} (hdigits : ¬ maxDigits < digits.length)
    {n : Int} (hn : n.natAbs = numberOf digits) : isOversized n = false := by
  rw [isOversized_eq_false_iff, hn]
  exact (numberOf_lt digits).trans_le
    (Nat.pow_le_pow_right (by decide) (Nat.le_of_not_lt hdigits))

theorem exists_digits_of_readNatural {cs : List Char} {n : Nat} (h : readNatural cs = .ok n) :
    ∃ digits, ¬ maxDigits < digits.length ∧ n = numberOf digits := by
  rw [readNatural] at h
  split at h
  · cases h
  · next digits rest hrun =>
      split at h
      · cases h
      · next hlength =>
          split at h
          · exact ⟨digits, hlength, (Except.ok.inj h).symm⟩
          · cases h

/-- An integer that is read does not have too many digits to be written. -/
theorem isOversized_of_readInteger {cs : List Char} {n : Int} (h : readInteger cs = .ok n) :
    isOversized n = false := by
  have hsigned : ∀ (sign : Int → Int) (rest : List Char), (∀ m, (sign m).natAbs = m.natAbs) →
      Except.map sign (do
        let m ← readNatural rest
        pure (m : Int)) = .ok n → isOversized n = false := by
    intro sign rest hsign hread
    cases hnatural : readNatural rest with
    | error fault =>
        rw [hnatural] at hread
        cases hread
    | ok m =>
        rw [hnatural] at hread
        obtain rfl : sign m = n := Except.ok.inj hread
        obtain ⟨digits, hdigits, rfl⟩ := exists_digits_of_readNatural hnatural
        exact isOversized_of_digits hdigits (by rw [hsign, Int.natAbs_natCast])
  rw [readInteger] at h
  split at h
  · exact hsigned (fun m => -m) _ Int.natAbs_neg h
  · exact hsigned (fun m => m) _ (fun _ => rfl) h
  · exact hsigned (fun m => m) _ (fun _ => rfl) h

end Number

namespace Binary64

variable {negative : Bool} {num den : Nat} {v : DyadicValue}

theorem roundedQuotient_le (num den : Nat) : roundedQuotient num den ≤ num / den + 1 := by
  rw [roundedQuotient]
  split
  · exact Nat.le_refl _
  · exact Nat.le_succ _

theorem natAbs_truncate {m : Nat} {e : Int} (hv : (finite negative m e).value? = some v) :
    v.truncate.natAbs = if 0 ≤ e then m * 2 ^ e.toNat else m / 2 ^ (-e).toNat := by
  have hsign : (if negative then -(m : Int) else m).natAbs = m := by
    cases negative <;> simp
  rw [value?, Option.some.injEq] at hv
  subst hv
  split
  · rw [DyadicValue.truncate, Int.natAbs_tdiv, Int.natAbs_mul, hsign, Int.natAbs_natCast,
      Int.natAbs_natCast]
    exact Nat.div_one _
  · rw [DyadicValue.truncate, Int.natAbs_tdiv, hsign, Int.natAbs_natCast]
    rfl

/-- The quotient of two numbers is rounded to a mantissa of 53 bits, unless it is zero. -/
theorem ofRatio_cases (hv : (ofRatio negative num den).value? = some v) :
    ∃ m e, (finite negative m e).value? = some v ∧ e ≤ greatestExponent ∧
      (m ≤ 2 ^ 52 ∨
        m = roundedQuotient (scaled num den e).1 (scaled num den e).2) := by
  have hfinite : ∀ (m : Nat) (e : Int),
      (if greatestExponent < e then infinite negative else finite negative m e).value? = some v →
        (finite negative m e).value? = some v ∧ e ≤ greatestExponent := by
    intro m e hvalue
    split at hvalue
    · cases hvalue
    · next he => exact ⟨hvalue, Int.not_lt.mp he⟩
  rw [ofRatio] at hv
  split at hv
  · exact ⟨0, leastExponent, hv, by decide, .inl (Nat.zero_le _)⟩
  · dsimp only at hv
    split at hv
    · obtain ⟨hvalue, he⟩ := hfinite _ _ hv
      exact ⟨_, _, hvalue, he, .inl (Nat.le_refl _)⟩
    · obtain ⟨hvalue, he⟩ := hfinite _ _ hv
      exact ⟨_, _, hvalue, he, .inr rfl⟩

theorem natAbs_truncate_le {m : Nat} {e : Int} (hv : (finite negative m e).value? = some v)
    (hm : m ≤ 2 ^ 52) (he : e ≤ greatestExponent) :
    v.truncate.natAbs ≤ 2 ^ 52 * 2 ^ greatestExponent.toNat := by
  have hpower : 2 ^ e.toNat ≤ 2 ^ greatestExponent.toNat :=
    Nat.pow_le_pow_right (by decide) (Int.toNat_le_toNat he)
  rw [natAbs_truncate hv]
  split
  · exact Nat.mul_le_mul hm hpower
  · exact ((Nat.div_le_self _ _).trans hm).trans (Nat.le_mul_of_pos_right _ (Nat.two_pow_pos _))

/-- The whole part of the number nearest to a quotient is not much greater than the quotient. -/
theorem natAbs_truncate_ofRatio_le (hv : (ofRatio negative num den).value? = some v) :
    v.truncate.natAbs ≤ num / den + 2 ^ 52 * 2 ^ greatestExponent.toNat := by
  obtain ⟨m, e, hvalue, he, hm | hm⟩ := ofRatio_cases hv
  · exact (natAbs_truncate_le hvalue hm he).trans (Nat.le_add_left _ _)
  · have hpower : 2 ^ e.toNat ≤ 2 ^ greatestExponent.toNat :=
      Nat.pow_le_pow_right (by decide) (Int.toNat_le_toNat he)
    have hone : 2 ^ greatestExponent.toNat ≤ 2 ^ 52 * 2 ^ greatestExponent.toNat :=
      Nat.le_mul_of_pos_left _ (by decide)
    have hle := roundedQuotient_le (scaled num den e).1 (scaled num den e).2
    rw [← hm, scaled] at hle
    rw [natAbs_truncate hvalue]
    split
    · next hpositive =>
        rw [if_pos hpositive, Nat.pow_eq, ← Nat.div_div_eq_div_mul] at hle
        calc
          m * 2 ^ e.toNat ≤ (num / den / 2 ^ e.toNat + 1) * 2 ^ e.toNat :=
            Nat.mul_le_mul_right _ hle
          _ = num / den / 2 ^ e.toNat * 2 ^ e.toNat + 2 ^ e.toNat := by ring
          _ ≤ num / den + 2 ^ 52 * 2 ^ greatestExponent.toNat :=
            Nat.add_le_add (Nat.div_mul_le_self _ _) (hpower.trans hone)
    · next hnegative =>
        have hpos : 0 < 2 ^ (-e).toNat := Nat.two_pow_pos _
        rw [if_neg hnegative, Nat.pow_eq] at hle
        calc
          m / 2 ^ (-e).toNat ≤ (num * 2 ^ (-e).toNat / den + 1) / 2 ^ (-e).toNat :=
            Nat.div_le_div_right hle
          _ ≤ (num * 2 ^ (-e).toNat / den + 2 ^ (-e).toNat) / 2 ^ (-e).toNat :=
            Nat.div_le_div_right (Nat.add_le_add_left hpos _)
          _ = num * 2 ^ (-e).toNat / den / 2 ^ (-e).toNat + 1 := Nat.add_div_right _ hpos
          _ = num / den + 1 := by
            rw [Nat.div_div_eq_div_mul, Nat.mul_div_mul_right _ _ hpos]
          _ ≤ num / den + 2 ^ 52 * 2 ^ greatestExponent.toNat :=
            Nat.add_le_add_left (Nat.mul_pos (by decide) (Nat.two_pow_pos _)) _

/-- The most digits that a decimal number has before the point, unless it is read as infinite. -/
def mostPlaces : Nat := 310

theorem digits_lt {digits : Nat} {exponent : Int}
    (hplaces : exponent + (Nat.toDigits 10 digits).length ≤ mostPlaces) :
    digits * 10 ^ exponent.toNat < 10 ^ mostPlaces * 10 ^ (-exponent).toNat := by
  have hdigits : digits < 10 ^ (Nat.toDigits 10 digits).length := by
    simpa only [Number.numberOf_toDigits] using Number.numberOf_lt (Nat.toDigits 10 digits)
  calc
    digits * 10 ^ exponent.toNat
      < 10 ^ (Nat.toDigits 10 digits).length * 10 ^ exponent.toNat :=
        Nat.mul_lt_mul_of_pos_right hdigits (Nat.pow_pos (by decide))
    _ = 10 ^ ((Nat.toDigits 10 digits).length + exponent.toNat) := (pow_add _ _ _).symm
    _ ≤ 10 ^ (mostPlaces + (-exponent).toNat) := Nat.pow_le_pow_right (by decide) (by omega)
    _ = 10 ^ mostPlaces * 10 ^ (-exponent).toNat := pow_add _ _ _

theorem isOversized_of_ofRatio (hlt : num < 10 ^ mostPlaces * den)
    (hv : (ofRatio negative num den).value? = some v) : Number.isOversized v.truncate = false := by
  have hmuch : 10 ^ mostPlaces + 2 ^ 52 * 2 ^ greatestExponent.toNat ≤ 10 ^ Number.maxDigits := by
    decide +kernel
  have hquotient : num / den < 10 ^ mostPlaces :=
    Nat.div_lt_of_lt_mul (hlt.trans_eq (Nat.mul_comm _ _))
  rw [Number.isOversized_eq_false_iff]
  exact (natAbs_truncate_ofRatio_le hv).trans_lt
    ((Nat.add_lt_add_right hquotient _).trans_le hmuch)

theorem isOversized_of_zero (hv : (zero negative).value? = some v) :
    Number.isOversized v.truncate = false := by
  rw [Number.isOversized_eq_false_iff, natAbs_truncate hv, if_neg (by decide), Nat.zero_div]
  exact Nat.pow_pos (by decide)

/-- The whole part of a number that is read does not have too many digits to be written. -/
theorem isOversized_of_ofDecimal {digits : Nat} {exponent : Int}
    (hv : (ofDecimal negative digits exponent).value? = some v) :
    Number.isOversized v.truncate = false := by
  rw [ofDecimal] at hv
  split at hv
  · exact isOversized_of_zero hv
  · split at hv
    · cases hv
    · next hplaces =>
        have hlt := digits_lt (Int.not_lt.mp hplaces)
        split at hv
        · exact isOversized_of_zero hv
        · split at hv
          · next hpositive =>
              rw [Int.toNat_of_nonpos (Int.neg_nonpos_of_nonneg hpositive), pow_zero] at hlt
              rw [Nat.pow_eq] at hv
              exact isOversized_of_ofRatio hlt hv
          · next hnegative =>
              rw [Int.toNat_of_nonpos (by omega : exponent ≤ 0), pow_zero, Nat.mul_one] at hlt
              rw [Nat.pow_eq] at hv
              exact isOversized_of_ofRatio hlt hv

end Binary64

end LinkShelf
