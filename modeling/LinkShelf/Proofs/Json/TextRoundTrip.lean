import LinkShelf.Json.Reader
import LinkShelf.Json.Writer

/-!
Texts inside JSON texts. Main statement: reading a written text gives the text back and stops right
after its closing quote (`readTextBody_writeText`).
-/

namespace LinkShelf.Json

open Text

/-- A character put in front of a text that was read. -/
def consRead (c : Char) (read : List Char × List Char) : List Char × List Char :=
  (c :: read.1, read.2)

theorem hexPadded_succ {width : Nat} (hwidth : 0 < width) (n : Nat) :
    hexPadded (width + 1) n = hexPadded width (n / 16) ++ [(n % 16).digitChar] := by
  rw [hexPadded, hexPadded]
  by_cases hn : n < 16
  · rw [Nat.toDigits_of_lt_base hn, Nat.div_eq_of_lt hn, Nat.mod_eq_of_lt hn]
    obtain ⟨w, rfl⟩ := Nat.exists_eq_add_of_lt hwidth
    simp [List.replicate_succ']
  · rw [Nat.toDigits_of_base_le (by decide) (Nat.le_of_not_lt hn)]
    simp

theorem hexPadded_four {n : Nat} (hn : n < 0x10000) :
    hexPadded 4 n = [(n / 16 / 16 / 16).digitChar, (n / 16 / 16 % 16).digitChar,
      (n / 16 % 16).digitChar, (n % 16).digitChar] := by
  have hfirst : hexPadded 1 (n / 16 / 16 / 16) = [(n / 16 / 16 / 16).digitChar] := by
    rw [hexPadded, Nat.toDigits_of_lt_base (by omega)]
    rfl
  rw [hexPadded_succ (by decide), hexPadded_succ (by decide), hexPadded_succ (by decide), hfirst]
  rfl

theorem hexValue?_digitChar : ∀ n < 16, hexValue? n.digitChar = some n := by
  decide

theorem exists_unitEscape {n : Nat} (hn : n < 0x10000) :
    ∃ a b c d, unitEscape n = ['\\', 'u', a, b, c, d] ∧ unit? a b c d = some n := by
  refine ⟨_, _, _, _, by rw [unitEscape, hexPadded_four hn], ?_⟩
  rw [unit?, hexValue?_digitChar _ (by omega), hexValue?_digitChar _ (by omega),
    hexValue?_digitChar _ (by omega), hexValue?_digitChar _ (by omega)]
  refine congrArg some ?_
  omega

theorem readTextBody_unit (start : List Char) {a b c d : Char} {n : Nat}
    (hhigh : isHighSurrogate n = false) (hlow : isLowSurrogate n = false)
    (hunit : unit? a b c d = some n) (e : Char) (rest : List Char) :
    readTextBody start ('\\' :: 'u' :: a :: b :: c :: d :: e :: rest) =
      (readTextBody start (e :: rest)).map (consRead (Char.ofNat n)) := by
  have hchar : unitChar n = Char.ofNat n := by
    simp [unitChar, hhigh, hlow]
  rw [readTextBody.eq_4]
  simp only [hunit, hhigh, hchar, Bool.false_eq_true, if_false]
  split <;> rfl

/-- The halves of a pair are read as one character. -/
theorem readTextBody_pair (start : List Char) {a b c d a' b' c' d' : Char} {high low : Nat}
    (hhigh : isHighSurrogate high = true) (hlow : isLowSurrogate low = true)
    (hunit : unit? a b c d = some high) (hunit' : unit? a' b' c' d' = some low) (e : Char)
    (rest : List Char) :
    readTextBody start ('\\' :: 'u' :: a :: b :: c :: d :: '\\' :: 'u' :: a' :: b' :: c' :: d' ::
        e :: rest) =
      (readTextBody start (e :: rest)).map
        (consRead (Char.ofNat (0x10000 + (high - 0xD800) * 0x400 + (low - 0xDC00)))) := by
  rw [readTextBody.eq_4]
  simp only [hunit, hhigh, hunit', hlow, if_true]
  rfl

theorem readTextBody_simpleEscape (start : List Char) {c d : Char} (hc : c ≠ 'u')
    (hescape : simpleEscape? c = some d) (rest : List Char) :
    readTextBody start ('\\' :: c :: rest) = (readTextBody start rest).map (consRead d) := by
  rw [readTextBody.eq_5 start c rest (fun _ _ _ _ _ _ h => absurd h hc), if_neg hc, hescape]
  rfl

theorem readTextBody_plain (start : List Char) {c : Char} (hquote : c ≠ '"') (hslash : c ≠ '\\')
    (hcontrol : ¬ c.toNat < 32) (rest : List Char) :
    readTextBody start (c :: rest) = (readTextBody start rest).map (consRead c) := by
  rw [readTextBody.eq_6 start c rest hquote (fun h _ => hslash h)
    (fun _ _ _ _ _ _ h _ => hslash h) (fun _ _ h _ => hslash h), if_neg hcontrol]
  rfl

theorem toNat_cases (c : Char) :
    c.toNat < 0xD800 ∨ 0xDFFF < c.toNat ∧ c.toNat < 0x110000 := c.valid

/-- A unit that is a character is read as this. -/
theorem readTextBody_unitEscape (start : List Char) {c : Char} (hc : c.toNat < 0x10000) (e : Char)
    (rest : List Char) :
    readTextBody start (unitEscape c.toNat ++ e :: rest) =
      (readTextBody start (e :: rest)).map (consRead c) := by
  obtain ⟨a, b, u, v, hescape, hunit⟩ := exists_unitEscape hc
  have hvalid := toNat_cases c
  have hhigh : isHighSurrogate c.toNat = false := by
    simp only [isHighSurrogate, Bool.and_eq_false_iff, decide_eq_false_iff_not]
    omega
  have hlow : isLowSurrogate c.toNat = false := by
    simp only [isLowSurrogate, Bool.and_eq_false_iff, decide_eq_false_iff_not]
    omega
  rw [hescape]
  have hread := readTextBody_unit start hhigh hlow hunit e rest
  rwa [Char.ofNat_toNat] at hread

/-- A character that has no unit of its own is read from the two that it is written as. -/
theorem readTextBody_pairEscape (start : List Char) {c : Char} (hc : 0x10000 ≤ c.toNat) (e : Char)
    (rest : List Char) :
    readTextBody start (unitEscape (0xD800 + (c.toNat - 0x10000) / 0x400) ++
        unitEscape (0xDC00 + (c.toNat - 0x10000) % 0x400) ++ e :: rest) =
      (readTextBody start (e :: rest)).map (consRead c) := by
  have hvalid := toNat_cases c
  obtain ⟨a, b, u, v, hescape, hunit⟩ :=
    exists_unitEscape (n := 0xD800 + (c.toNat - 0x10000) / 0x400) (by omega)
  obtain ⟨a', b', u', v', hescape', hunit'⟩ :=
    exists_unitEscape (n := 0xDC00 + (c.toNat - 0x10000) % 0x400) (by omega)
  have hhigh : isHighSurrogate (0xD800 + (c.toNat - 0x10000) / 0x400) = true := by
    simp only [isHighSurrogate, Bool.and_eq_true, decide_eq_true_eq]
    omega
  have hlow : isLowSurrogate (0xDC00 + (c.toNat - 0x10000) % 0x400) = true := by
    simp only [isLowSurrogate, Bool.and_eq_true, decide_eq_true_eq]
    omega
  have hread := readTextBody_pair start hhigh hlow hunit hunit' e rest
  have hsum : 0x10000 + (0xD800 + (c.toNat - 0x10000) / 0x400 - 0xD800) * 0x400 +
      (0xDC00 + (c.toNat - 0x10000) % 0x400 - 0xDC00) = c.toNat := by
    omega
  rw [hsum, Char.ofNat_toNat] at hread
  rw [hescape, hescape']
  exact hread

/-- Every form in which a character is written is read as that character. -/
theorem readTextBody_escapedChar (start : List Char) (asciiOnly : Bool) (c e : Char)
    (rest : List Char) :
    readTextBody start (escapedChar asciiOnly c ++ e :: rest) =
      (readTextBody start (e :: rest)).map (consRead c) := by
  unfold escapedChar
  split
  · rename_i h
    rcases h with rfl | rfl <;> exact readTextBody_simpleEscape start (by decide) rfl _
  rename_i hmarks
  split
  · rename_i h
    exact h ▸ readTextBody_simpleEscape start (by decide) rfl _
  split
  · rename_i h
    exact h ▸ readTextBody_simpleEscape start (by decide) rfl _
  split
  · rename_i h
    exact h ▸ readTextBody_simpleEscape start (by decide) rfl _
  split
  · rename_i h
    have hc : c = Char.ofNat 8 := by rw [← h, Char.ofNat_toNat]
    exact hc ▸ readTextBody_simpleEscape start (by decide) rfl _
  split
  · rename_i h
    have hc : c = Char.ofNat 12 := by rw [← h, Char.ofNat_toNat]
    exact hc ▸ readTextBody_simpleEscape start (by decide) rfl _
  split
  · exact readTextBody_unitEscape start (by omega) e rest
  rename_i hcontrol
  split
  · split
    · next hunit => exact readTextBody_unitEscape start hunit e rest
    · next hpair => exact readTextBody_pairEscape start (Nat.le_of_not_lt hpair) e rest
  · exact readTextBody_plain start (fun h => hmarks (Or.inl h)) (fun h => hmarks (Or.inr h))
      hcontrol _

theorem readTextBody_flatMap (start : List Char) (asciiOnly : Bool) (cs rest : List Char) :
    readTextBody start (cs.flatMap (escapedChar asciiOnly) ++ '"' :: rest) = .ok (cs, rest) := by
  induction cs with
  | nil => exact readTextBody.eq_2 start rest
  | cons c cs ih =>
      -- whatever follows the character is not empty, which its escape may ask for
      obtain ⟨e, more, hmore⟩ : ∃ e more,
          cs.flatMap (escapedChar asciiOnly) ++ '"' :: rest = e :: more :=
        List.exists_cons_of_ne_nil (by simp)
      rw [List.flatMap_cons, List.append_assoc, hmore, readTextBody_escapedChar, ← hmore, ih]
      rfl

theorem readTextBody_writeText (asciiOnly : Bool) (s : String) (rest : List Char) :
    ∃ body, writeText asciiOnly s ++ rest = '"' :: body ∧
      ∀ start, readTextBody start body = .ok (s.toList, rest) := by
  refine ⟨s.toList.flatMap (escapedChar asciiOnly) ++ '"' :: rest, by simp [writeText], ?_⟩
  intro start
  exact readTextBody_flatMap start asciiOnly s.toList rest

end LinkShelf.Json
