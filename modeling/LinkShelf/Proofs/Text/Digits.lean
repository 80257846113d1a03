import LinkShelf.Proofs.Text.Lower
import LinkShelf.Text.Blank
import LinkShelf.Text.Digit

/-!
Decimal digits of all scripts among the other characters. Main statement: a digit is neither white
space nor a letter, so that case leaves it alone (`isBlank_of_isDigit`, `isLower_of_isDigit`).
-/

namespace LinkShelf.Text

variable {c : Char}

theorem exists_zero_of_isDigit (hc : isDigit c = true) :
    ∃ z ∈ digitZeros, z ≤ c.toNat ∧ c.toNat ≤ z + 9 := by
  rw [isDigit, digitValue?, Option.isSome_map] at hc
  obtain ⟨z, hfind⟩ := Option.isSome_iff_exists.mp hc
  have hz := List.find?_some hfind
  simp only [Bool.and_eq_true, decide_eq_true_eq] at hz
  exact ⟨z, List.mem_of_find?_eq_some hfind, by omega, by omega⟩

/-- The digits outside ASCII stand apart from white space and from all letters that have a lower
case. -/
theorem digitZeros_apart : ∀ z ∈ digitZeros, (z = 0x30 ∨ 0x660 ≤ z) ∧
    (z + 9 < 0x1680 ∨ (0x1680 < z ∧ z + 9 < 0x2000) ∨ 0x3000 < z) ∧
    lowerRanges.all (CaseRange.avoids false z (z + 9)) = true := by
  decide +kernel

theorem isBlank_of_isDigit (hc : isDigit c = true) : isBlank c = false := by
  obtain ⟨z, hz, hlow, hhigh⟩ := exists_zero_of_isDigit hc
  obtain ⟨hstart, hspace, -⟩ := digitZeros_apart z hz
  simp only [isBlank, Bool.or_eq_false_iff, Bool.and_eq_false_iff, decide_eq_false_iff_not,
    beq_eq_false_iff_ne]
  omega

theorem isLower_of_isDigit (hc : isDigit c = true) : IsLower c := by
  obtain ⟨z, hz, hlow, hhigh⟩ := exists_zero_of_isDigit hc
  obtain ⟨hstart, -, havoids⟩ := digitZeros_apart z hz
  refine ⟨?_, by omega, by omega⟩
  apply CaseRange.find?_eq_none
  intro r hr
  exact CaseRange.not_holds_of_avoids (List.all_eq_true.mp havoids r hr) hlow hhigh nofun

/-- In ASCII there are the usual digits only. -/
theorem isDigit_range (hc : isDigit c = true) :
    0x30 ≤ c.toNat ∧ c.toNat ≤ 0x39 ∨ 0x660 ≤ c.toNat := by
  obtain ⟨z, hz, hlow, hhigh⟩ := exists_zero_of_isDigit hc
  obtain ⟨hstart, -, -⟩ := digitZeros_apart z hz
  omega

end LinkShelf.Text
