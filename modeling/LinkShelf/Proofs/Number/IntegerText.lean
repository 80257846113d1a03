import LinkShelf.Proofs.Number.Magnitude
import LinkShelf.Proofs.Text.Digits
import LinkShelf.Proofs.Text.Pieces
import Mathlib.Data.List.TakeWhile

/-!
Integers and their texts. Main statements: an integer is read from its own text exactly if it does
not have too many digits, also where only plain digits are read (`readInteger_integerText`,
`readPlain?_integerText`), and no word of plain digits writes one that has
(`isOversized_of_readPlain?`).
-/

namespace LinkShelf.Number

open Text

theorem isDigit_of_isDecimal {c : Char} (hc : c.isDigit = true) : Text.isDigit c = true := by
  rw [Text.isDigit, digitValue?_of_isDigit hc, Option.isSome_some]

theorem digitRun?_digits {digits : List Char} (hdigits : ∀ c ∈ digits, c.isDigit = true) :
    digitRun? false digits = some (digits, []) := by
  induction digits with
  | nil => rfl
  | cons c digits ih =>
      obtain ⟨hc, hmore⟩ := List.forall_mem_cons.mp hdigits
      rw [digitRun?, if_pos (isDigit_of_isDecimal hc), ih hmore]
      rfl

theorem readNatural_toDigits (n : Nat) :
    readNatural (Nat.toDigits 10 n) =
      if maxDigits < (Nat.toDigits 10 n).length then
        .error (.tooManyDigits (Nat.toDigits 10 n).length)
      else .ok n := by
  have hdigits : ∀ c ∈ Nat.toDigits 10 n, c.isDigit = true := fun c => isDigit_of_mem_toDigits
  have hrun : digitRun? true (Nat.toDigits 10 n) = some (Nat.toDigits 10 n, []) := by
    obtain ⟨c, rest, hcons⟩ :=
      List.exists_cons_of_ne_nil (Nat.toDigits_ne_nil (n := n) (b := 10))
    rw [hcons] at hdigits ⊢
    obtain ⟨hc, hmore⟩ := List.forall_mem_cons.mp hdigits
    rw [digitRun?, if_pos (isDigit_of_isDecimal hc), digitRun?_digits hmore]
    rfl
  rw [readNatural, hrun]
  simp only [List.all_nil, if_true, numberOf_toDigits]

theorem isIntegerBlank_of_mem_toDigits {n : Nat} {c : Char} (hc : c ∈ Nat.toDigits 10 n) :
    isIntegerBlank c = false := by
  rw [isIntegerBlank, isBlank_of_isDigit (isDigit_of_isDecimal (isDigit_of_mem_toDigits hc))]
  rfl

theorem toDigits_ne_cons (n : Nat) {c : Char} (hc : c.isDigit = false) (more : List Char) :
    Nat.toDigits 10 n ≠ c :: more := by
  simpa using toDigits_append_ne_cons n hc [] more

/-- An integer is read from its own text, unless it has too many digits. -/
theorem readInteger_integerText (n : Int) :
    readInteger (integerText n) =
      if isOversized n then .error (.tooManyDigits (Nat.toDigits 10 n.natAbs).length)
      else .ok n := by
  have hnatural := readNatural_toDigits n.natAbs
  simp only [← isOversized_iff] at hnatural
  by_cases hneg : n < 0
  · have hblank : isIntegerBlank '-' = false := by decide
    rw [integerText, if_pos hneg, readInteger, List.dropWhile_cons_of_neg (by simp [hblank])]
    simp only [hnatural]
    split
    · rfl
    · show Except.ok (-(n.natAbs : Int)) = .ok n
      rw [Int.ofNat_natAbs_of_nonpos hneg.le, Int.neg_neg]
  · obtain ⟨c, rest, hcons⟩ :=
      List.exists_cons_of_ne_nil (Nat.toDigits_ne_nil (n := n.natAbs) (b := 10))
    have hblank : isIntegerBlank c = false :=
      isIntegerBlank_of_mem_toDigits (n := n.natAbs) (by simp [hcons])
    rw [integerText, if_neg hneg, readInteger, hcons,
      List.dropWhile_cons_of_neg (by simp [hblank]), ← hcons]
    split
    · next more heq => exact absurd heq (toDigits_ne_cons _ (by decide) more)
    · next more heq => exact absurd heq (toDigits_ne_cons _ (by decide) more)
    · simp only [hnatural]
      split
      · rfl
      · show Except.ok (n.natAbs : Int) = .ok n
        rw [Int.natAbs_of_nonneg (not_lt.mp hneg)]

theorem readPlainNatural?_toDigits (n : Nat) :
    readPlainNatural? (Nat.toDigits 10 n) =
      if maxDigits < (Nat.toDigits 10 n).length then none else some n := by
  rcases Nat.eq_zero_or_pos n with rfl | hn
  · rfl
  · have hdigits : ∀ c ∈ Nat.toDigits 10 n, c.isDigit = true := fun c => isDigit_of_mem_toDigits
    have hother : ∀ d : Char, d.isDigit = false → ∀ c ∈ Nat.toDigits 10 n, (c == d) = false := by
      intro d hd c hc
      rw [beq_eq_false_iff_ne]
      rintro rfl
      exact absurd (hdigits c hc) (by simp [hd])
    have hcut : cutFirst (· == '.') (Nat.toDigits 10 n) = none :=
      cutFirst_eq_none.mpr (hother '.' (by decide))
    have hpieces : pieces (· == '_') (Nat.toDigits 10 n) = [Nat.toDigits 10 n] :=
      pieces_of_forall (hother '_' (by decide))
    have hplain : plainDigits? (Nat.toDigits 10 n) = some (Nat.toDigits 10 n) := by
      obtain ⟨c, rest, hcons, hc⟩ := toDigits_eq_cons hn
      have hhead : ¬ (Nat.toDigits 10 n).head? = some '0' := by simpa [hcons] using hc
      have hne : (Nat.toDigits 10 n).isEmpty = false := by rw [hcons, List.isEmpty_cons]
      simp only [plainDigits?, if_neg hhead, hne, Bool.false_eq_true, if_false, hpieces,
        List.all_cons, List.all_nil, Bool.not_false, List.all_eq_true.mpr hdigits, Bool.and_self,
        if_true, List.flatten_cons, List.flatten_nil, List.append_nil]
    simp only [readPlainNatural?, hcut, hplain, Option.bind_eq_bind, Option.bind_some,
      numberOf_toDigits]

/-- An integer is read from its own text as plain digits too, unless it has too many of them. -/
theorem readPlain?_integerText (n : Int) :
    readPlain? (integerText n) = if isOversized n then none else some n := by
  have hnatural := readPlainNatural?_toDigits n.natAbs
  simp only [← isOversized_iff] at hnatural
  have hstrip : dropEndWhile isIntegerBlank ((integerText n).dropWhile isIntegerBlank) =
      integerText n := by
    have hblank : ∀ c ∈ integerText n, isIntegerBlank c = false := by
      rw [integerText]
      split
      · exact List.forall_mem_cons.mpr ⟨by decide, fun _ => isIntegerBlank_of_mem_toDigits⟩
      · exact fun _ => isIntegerBlank_of_mem_toDigits
    have hfront : (integerText n).dropWhile isIntegerBlank = integerText n :=
      List.dropWhile_eq_self_iff.mpr fun hl => by simp [hblank _ (List.getElem_mem hl)]
    rw [hfront]
    exact dropEndWhile_of_getLast? _ _ fun c hc => hblank c (List.mem_of_getLast? hc)
  rw [readPlain?, hstrip, integerText]
  by_cases hneg : n < 0
  · rw [if_pos hneg]
    simp only [hnatural]
    split
    · rfl
    · show some (-(n.natAbs : Int)) = some n
      rw [Int.ofNat_natAbs_of_nonpos hneg.le, Int.neg_neg]
  · rw [if_neg hneg]
    split
    · next more heq => exact absurd heq (toDigits_ne_cons _ (by decide) more)
    · next more heq => exact absurd heq (toDigits_ne_cons _ (by decide) more)
    · simp only [hnatural]
      split
      · rfl
      · show some (n.natAbs : Int) = some n
        rw [Int.natAbs_of_nonneg (not_lt.mp hneg)]

theorem isOversized_of_readPlainNatural? {cs : List Char} {m : Nat}
    (hread : readPlainNatural? cs = some m) {n : Int} (hn : n.natAbs = m) :
    isOversized n = false := by
  have hdigits : ∀ {whole : List Char}, ((plainDigits? whole).bind fun digits =>
      if maxDigits < digits.length then none else some (numberOf digits)) = some m →
      isOversized n = false := by
    intro whole hwhole
    obtain ⟨digits, -, hdigits⟩ := Option.bind_eq_some_iff.mp hwhole
    split at hdigits
    · cases hdigits
    · next hlength =>
        obtain rfl := Option.some.inj hdigits
        exact isOversized_of_digits hlength hn
  rw [readPlainNatural?] at hread
  split at hread
  · exact hdigits hread
  · split at hread
    · exact hdigits hread
    · cases hread

/-- A word of plain digits does not write an integer that has too many of them. -/
theorem isOversized_of_readPlain? {cs : List Char} {n : Int} (hread : readPlain? cs = some n) :
    isOversized n = false := by
  rw [readPlain?] at hread
  split at hread
  all_goals
    simp only [Option.map_eq_some_iff, Option.bind_eq_bind, Option.bind_eq_some_iff,
      Option.pure_def, Option.some.injEq] at hread
    obtain ⟨k, ⟨m, hm, rfl⟩, rfl⟩ := hread
    exact isOversized_of_readPlainNatural? hm (by simp)

end LinkShelf.Number
