import LinkShelf.Proofs.Text.Lower
import LinkShelf.Url.Escapes

/-!
What decoding escapes does to a text. Main statements: decoding never makes a text longer and brings
in unreserved characters only (`length_decodeUnreserved_le`, `mem_decodeUnreserved`), and it changes
nothing exactly where every escape is one of a reserved character in upper case
(`decodeUnreserved_eq_self_iff`).
-/

namespace LinkShelf.Url

open Text

/-! ## Hexadecimal digits -/

section Digits

variable {a : Char}

theorem toNat_of_isHexDigit (ha : isHexDigit a = true) : a.toNat < 128 := by
  have hle : ∀ {a b : Char}, a ≤ b ↔ a.toNat ≤ b.toNat := UInt32.le_iff_toNat_le
  simp only [isHexDigit, Char.isDigit, Bool.or_eq_true, Bool.and_eq_true, decide_eq_true_eq,
    hle] at ha
  have hdigit : a.val ≤ 57 → a.toNat ≤ 57 := UInt32.le_iff_toNat_le.mp
  rcases ha with (ha | ha) | ha
  · have := hdigit ha.2
    omega
  · have : a.toNat ≤ 102 := ha.2
    omega
  · have : a.toNat ≤ 70 := ha.2
    omega

theorem forall_isHexDigit {P : Char → Prop}
    (hascii : ∀ n < 128, isHexDigit (Char.ofNat n) = true → P (Char.ofNat n))
    (ha : isHexDigit a = true) : P a := by
  have := hascii a.toNat (toNat_of_isHexDigit ha)
  rw [Char.ofNat_toNat] at this
  exact this ha

/-- A hexadecimal digit is known from its lower case. -/
theorem hexDigit_of_toLower (ha : isHexDigit a = true) :
    isHexDigit a.toLower = true ∧ hexDigitValue? a = hexDigitValue? a.toLower ∧
      a.toUpper = a.toLower.toUpper :=
  forall_isHexDigit (P := fun a => isHexDigit a.toLower = true ∧
    hexDigitValue? a = hexDigitValue? a.toLower ∧ a.toUpper = a.toLower.toUpper)
    (by decide) ha

end Digits

/-! ## Decoding -/

/-- Whether no escape of a text is one of an unreserved character or has a letter in lower case. -/
def areEscapesSettled : List Char → Bool
  | '%' :: a :: b :: rest =>
    match escapeCode? a b with
    | some code =>
      !isUnreserved (Char.ofNat code) && a.toUpper == a && b.toUpper == b && areEscapesSettled rest
    | none => areEscapesSettled (a :: b :: rest)
  | _ :: rest => areEscapesSettled rest
  | [] => true

theorem decodeUnreserved_cons {c : Char} (hc : c ≠ '%') (rest : List Char) :
    decodeUnreserved (c :: rest) = c :: decodeUnreserved rest :=
  decodeUnreserved.eq_2 c rest fun _ _ _ heq _ => hc heq

theorem length_settledEscape_le (a b : Char) (code : Nat) :
    (settledEscape a b code).length ≤ 3 := by
  rw [settledEscape]
  split <;> simp

theorem length_decodeUnreserved_le (cs : List Char) :
    (decodeUnreserved cs).length ≤ cs.length := by
  fun_induction decodeUnreserved cs with
  | case1 a b rest code hcode ih =>
      have := length_settledEscape_le a b code
      simp only [List.length_append, List.length_cons]
      omega
  | case2 a b rest hcode ih =>
      simp only [List.length_cons] at ih ⊢
      omega
  | case3 c rest hc ih =>
      simp only [List.length_cons]
      omega
  | case4 => simp

theorem toUpper_of_not_ascii {c : Char} (hc : 128 ≤ c.toNat) : c.toUpper = c := by
  refine dif_neg ?_
  rintro ⟨-, hlast⟩
  have : c.toNat ≤ 122 := UInt32.le_iff_toNat_le.mp hlast
  omega

theorem isUnreserved_toUpper {c : Char} (hc : c.toUpper ≠ c) : isUnreserved c.toUpper = true := by
  have hcodes : ∀ n < 128, (Char.ofNat n).toUpper ≠ Char.ofNat n →
      isUnreserved (Char.ofNat n).toUpper = true := by
    decide
  have hascii : c.toNat < 128 := Nat.lt_of_not_le fun h => hc (toUpper_of_not_ascii h)
  have hself := hcodes c.toNat hascii
  rw [Char.ofNat_toNat] at hself
  exact hself hc

theorem mem_settledEscape {a b d : Char} {code : Nat} (hd : d ∈ settledEscape a b code) :
    d = '%' ∨ d = a ∨ d = b ∨ isUnreserved d = true := by
  rw [settledEscape] at hd
  split at hd
  · next hcode =>
      obtain rfl := List.mem_singleton.mp hd
      exact .inr (.inr (.inr hcode))
  · simp only [List.mem_cons, List.not_mem_nil, or_false] at hd
    rcases hd with rfl | rfl | rfl
    · exact .inl rfl
    · by_cases ha : a.toUpper = a
      · exact .inr (.inl ha)
      · exact .inr (.inr (.inr (isUnreserved_toUpper ha)))
    · by_cases hb : b.toUpper = b
      · exact .inr (.inr (.inl hb))
      · exact .inr (.inr (.inr (isUnreserved_toUpper hb)))

theorem mem_decodeUnreserved {cs : List Char} {d : Char} (hd : d ∈ decodeUnreserved cs) :
    d ∈ cs ∨ isUnreserved d = true := by
  fun_induction decodeUnreserved cs with
  | case1 a b rest code hcode ih =>
      rcases List.mem_append.mp hd with hd | hd
      · rcases mem_settledEscape hd with rfl | rfl | rfl | hd
        · simp
        · simp
        · simp
        · exact .inr hd
      · exact (ih hd).imp_left fun h => by simp [h]
  | case2 a b rest hcode ih =>
      rcases List.mem_cons.mp hd with rfl | hd
      · simp
      · exact (ih hd).imp_left fun h => by simp [h]
  | case3 c rest hc ih =>
      rcases List.mem_cons.mp hd with rfl | hd
      · simp
      · exact (ih hd).imp_left fun h => by simp [h]
  | case4 => simp at hd

theorem settledEscape_ne_nil (a b : Char) (code : Nat) : settledEscape a b code ≠ [] := by
  rw [settledEscape]
  split <;> simp

@[simp] theorem decodeUnreserved_eq_nil_iff {cs : List Char} :
    decodeUnreserved cs = [] ↔ cs = [] := by
  fun_cases decodeUnreserved cs with
  | case1 a b rest code hcode => simp [settledEscape_ne_nil]
  | case2 a b rest hcode => simp
  | case3 c rest hc => simp
  | case4 => simp

/-- Decoding changes nothing exactly where all escapes are settled. -/
theorem decodeUnreserved_eq_self_iff {cs : List Char} :
    decodeUnreserved cs = cs ↔ areEscapesSettled cs = true := by
  fun_induction decodeUnreserved cs with
  | case1 a b rest code hcode ih =>
      have hlength := length_decodeUnreserved_le rest
      simp only [areEscapesSettled, hcode, Bool.and_eq_true, beq_iff_eq, ← ih,
        Bool.not_eq_true']
      rw [settledEscape]
      cases hreserved : isUnreserved (Char.ofNat code) with
      | true =>
          simp only [if_true, Bool.true_eq_false, false_and, iff_false]
          intro heq
          have := congrArg List.length heq
          simp at this
          omega
      | false => simp [and_assoc]
  | case2 a b rest hcode ih => simpa [areEscapesSettled, hcode] using ih
  | case3 c rest hc ih =>
      rw [areEscapesSettled.eq_2 c rest hc, ← ih]
      simp
  | case4 => simp [areEscapesSettled]

end LinkShelf.Url
