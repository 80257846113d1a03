import LinkShelf.Number.Integer

/-!
Decimal digits that are written and read again. Main statements: a number is the one that its
digits write (`numberOf_toDigits`), and a number has more digits than are accepted exactly when it
is oversized (`isOversized_iff`).
-/

namespace LinkShelf.Number

open Text

theorem digitValue?_of_isDigit {c : Char} (hc : c.isDigit = true) :
    digitValue? c = some (c.toNat - '0'.toNat) := by
  have hrange : 48 ≤ c.toNat ∧ c.toNat ≤ 57 := by
    simpa [Char.isDigit, UInt32.le_iff_toNat_le] using hc
  have hfind : digitZeros.find? (fun z => z ≤ c.toNat && c.toNat < z + 10) = some 0x30 := by
    refine List.find?_cons_of_pos ?_
    simp only [Bool.and_eq_true, decide_eq_true_eq]
    omega
  rw [digitValue?, hfind]
  rfl

/-- Digits are added up as usual wherever a digit has the usual value. -/
theorem foldl_digits {value : Char → Option Nat}
    (hvalue : ∀ c, c.isDigit = true → value c = some (c.toNat - '0'.toNat)) {digits : List Char}
    (hdigits : ∀ c ∈ digits, c.isDigit = true) (n : Nat) :
    digits.foldl (fun n c => 10 * n + (value c).getD 0) n = Nat.ofDigitChars 10 digits n := by
  induction digits generalizing n with
  | nil => rfl
  | cons c digits ih =>
      rw [List.foldl_cons, Nat.ofDigitChars_cons, hvalue c (hdigits c (by simp))]
      exact ih (fun d hd => hdigits d (by simp [hd])) _

/-- On ASCII digits the value is the usual one. -/
theorem numberOf_eq_ofDigitChars {digits : List Char}
    (hdigits : ∀ c ∈ digits, c.isDigit = true) :
    numberOf digits = Nat.ofDigitChars 10 digits 0 :=
  foldl_digits (fun _ hc => digitValue?_of_isDigit hc) hdigits 0

theorem isDigit_of_mem_toDigits {n : Nat} {c : Char} (hc : c ∈ Nat.toDigits 10 n) :
    c.isDigit = true :=
  Nat.isDigit_of_mem_toDigits (by decide) (by decide) hc

theorem toDigits_append_ne_cons (n : Nat) {c : Char} (hc : c.isDigit = false)
    (rest more : List Char) : Nat.toDigits 10 n ++ rest ≠ c :: more := by
  intro heq
  obtain ⟨d, digits, hdigits⟩ :=
    List.exists_cons_of_ne_nil (Nat.toDigits_ne_nil (n := n) (b := 10))
  have hd : d.isDigit = true := isDigit_of_mem_toDigits (n := n) (by simp [hdigits])
  rw [hdigits] at heq
  rw [(List.cons.inj heq).1, hc] at hd
  cases hd

theorem numberOf_toDigits (n : Nat) : numberOf (Nat.toDigits 10 n) = n := by
  rw [numberOf_eq_ofDigitChars fun c hc => isDigit_of_mem_toDigits hc]
  exact Nat.ofDigitChars_ten_toDigits

theorem isOversized_iff (n : Int) :
    isOversized n = true ↔ maxDigits < (Nat.toDigits 10 n.natAbs).length := by
  have hlength := Nat.length_toDigits_le_iff (b := 10) (n := n.natAbs) (k := maxDigits)
    (by decide) (by decide)
  rw [isOversized, decide_eq_true_eq, Nat.pow_eq, ← Nat.not_le, hlength, Nat.not_lt]

/-- The digits of a positive number do not start with a zero. -/
theorem toDigits_eq_cons {n : Nat} (hn : 0 < n) :
    ∃ c rest, Nat.toDigits 10 n = c :: rest ∧ c ≠ '0' := by
  induction n using Nat.strongRecOn with
  | ind n ih =>
      by_cases hsmall : n < 10
      · refine ⟨n.digitChar, [], Nat.toDigits_of_lt_base hsmall, ?_⟩
        have : ∀ m < 10, 0 < m → m.digitChar ≠ '0' := by decide
        exact this n hsmall hn
      · obtain ⟨c, rest, hdigits, hc⟩ := ih (n / 10) (by omega) (by omega)
        refine ⟨c, rest ++ [(n % 10).digitChar], ?_, hc⟩
        rw [Nat.toDigits_of_base_le (by decide) (by omega), hdigits, List.cons_append]

end LinkShelf.Number
