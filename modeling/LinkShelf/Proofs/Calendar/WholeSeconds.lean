import LinkShelf.Proofs.Calendar.RecordText
import LinkShelf.Proofs.Text.Blank
import LinkShelf.Proofs.Text.Pieces

/-!
Moments that are stored and read again. The stored text tells the second only, and has no leading
zeros in the year. Main statement: reading it gives the moment at the start of its second, exactly
if the year has four digits; a text with a year of fewer is refused (`reread_eq_ok_iff`).
-/

namespace LinkShelf

open Text

namespace Instant

variable (t : Instant)

theorem wholeSecond_micros_mod : t.wholeSecond.micros % microsPerSecond = 0 := by
  simp only [wholeSecond, microsPerSecond]
  omega

theorem wholeSecond_day : t.wholeSecond.micros / microsPerDay = t.micros / microsPerDay := by
  simp only [wholeSecond, microsPerSecond, microsPerDay]
  omega

@[simp] theorem yearMonthDay_wholeSecond : t.wholeSecond.yearMonthDay = t.yearMonthDay := by
  rw [yearMonthDay, yearMonthDay, wholeSecond_day]

theorem clockText_wholeSecond : t.wholeSecond.timeOfDay.clockText = t.timeOfDay.clockText := by
  have hseconds : t.wholeSecond.micros % microsPerDay / microsPerSecond =
      t.micros % microsPerDay / microsPerSecond := by
    simp only [wholeSecond, microsPerSecond, microsPerDay]
    omega
  simp only [timeOfDay, TimeOfDay.ofMicros, TimeOfDay.clockText, hseconds]

/-- The stored text does not tell the fraction of a second. -/
theorem recordText_wholeSecond : t.wholeSecond.recordText = t.recordText := by
  simp only [recordText, yearMonthDay_wholeSecond, clockText_wholeSecond]

end Instant

/-! ## Years of fewer than four digits -/

namespace Timestamp

theorem takeDigits?_eq_none {count : Nat} {cs : List Char} {c : Char} (hc : c ∈ cs.take count)
    (hdigit : c.isDigit = false) : takeDigits? count cs = none := by
  refine if_neg ?_
  rintro ⟨-, hall⟩
  simp [List.all_eq_true.mp hall c hc] at hdigit

theorem readParts?_eq_none {cs : List Char} (hyear : takeDigits? 4 cs = none) :
    readParts? cs = none := by
  have hdate : ∀ length, readDate? cs length = none := by
    intro length
    rw [readDate?, hyear]
    rfl
  rw [readParts?]
  cases dateLength? cs with
  | none => rfl
  | some length =>
      dsimp only
      rw [Option.bind_eq_bind, Option.bind_some, hdate]
      rfl

theorem length_paddedNumber_zero {n : Nat} (hn : n < 1000) :
    (paddedNumber 0 n).toList.length < 4 := by
  have hle := (Nat.length_toDigits_le_iff (b := 10) (n := n) (k := 3) (by decide)
    (by decide)).mpr (by omega)
  rw [paddedNumber, String.toList_ofList, List.length_append, List.length_replicate]
  omega

/-- A character that stands in the stored text of a moment. -/
def IsStampChar (c : Char) : Prop := c.isDigit = true ∨ c ∈ ['-', 'T', ':', 'Z']

theorem IsStampChar.ascii {c : Char} (hc : IsStampChar c) : c.toNat < 128 ∧ isBlank c = false := by
  have hsigns : ∀ c ∈ ['-', 'T', ':', 'Z'], c.toNat < 128 ∧ isBlank c = false := by decide
  rcases hc with hc | hc
  · exact ⟨(isPlain_of_isDigit hc).1, (isPlain_of_isDigit hc).2.2⟩
  · exact hsigns c hc

theorem isStampChar_recordText (t : Instant) : ∀ c ∈ t.recordText.toList, IsStampChar c := by
  have hnumber : ∀ width n, ∀ c ∈ (paddedNumber width n).toList, IsStampChar c :=
    fun width n c hc => .inl ((writes_paddedNumber width n).digit c hc)
  have hsign : ∀ (sign : String) (d : Char), sign.toList = [d] → d ∈ ['-', 'T', ':', 'Z'] →
      ∀ c ∈ sign.toList, IsStampChar c := by
    intro sign d hsign hd c hc
    rw [hsign, List.mem_singleton] at hc
    exact .inr (hc ▸ hd)
  have hhyphen := hsign "-" '-' rfl (by simp)
  have hcolon := hsign ":" ':' rfl (by simp)
  simp only [Instant.recordText, TimeOfDay.clockText, String.toList_append, List.forall_mem_append]
  exact ⟨⟨⟨⟨⟨⟨⟨hnumber _ _, hhyphen⟩, hnumber _ _⟩, hhyphen⟩, hnumber _ _⟩,
    hsign "T" 'T' rfl (by simp)⟩, ⟨⟨⟨⟨hnumber _ _, hcolon⟩, hnumber _ _⟩, hcolon⟩, hnumber _ _⟩⟩,
      hsign "Z" 'Z' rfl (by simp)⟩

theorem recordText_eq_year (t : Instant) : ∃ rest,
    t.recordText.toList = (paddedNumber 0 t.yearMonthDay.1).toList ++ '-' :: rest := by
  have hhyphen : "-".toList = ['-'] := rfl
  simp only [Instant.recordText, String.toList_append, List.append_assoc, hhyphen,
    List.singleton_append]
  exact ⟨_, rfl⟩

/-- A year of fewer than four digits brings its hyphen among the first four characters. -/
theorem takeDigits?_year {n : Nat} (hn : n < 1000) (rest : List Char) :
    takeDigits? 4 ((paddedNumber 0 n).toList ++ '-' :: rest) = none := by
  refine takeDigits?_eq_none (c := '-') ?_ rfl
  obtain ⟨k, hk⟩ := Nat.exists_eq_add_of_lt (length_paddedNumber_zero hn)
  rw [hk, Nat.add_assoc, List.take_length_add_append]
  simp

theorem readText_recordText_of_lt {t : Instant} (hyear : t.yearMonthDay.1 < 1000) :
    ∃ shown, readText t.recordText = .error (.malformed shown) := by
  have hchars := isStampChar_recordText t
  have hstrip : strip t.recordText.toList = t.recordText.toList :=
    strip_of_forall fun c hc => (hchars c hc).ascii.2
  obtain ⟨rest, htext⟩ := recordText_eq_year t
  have hyearChars : 'Z' ∉ (paddedNumber 0 t.yearMonthDay.1).toList := fun hmem =>
    ((writes_paddedNumber 0 t.yearMonthDay.1).plain hmem).2.1 rfl
  have hzone : replaceChar 'Z' "+00:00".toList t.recordText.toList =
      (paddedNumber 0 t.yearMonthDay.1).toList ++
        '-' :: replaceChar 'Z' "+00:00".toList rest := by
    have hsame : replaceChar 'Z' "+00:00".toList (paddedNumber 0 t.yearMonthDay.1).toList =
        (paddedNumber 0 t.yearMonthDay.1).toList := replaceChar_eq_self hyearChars
    rw [replaceChar] at hsame
    rw [htext, replaceChar, List.flatMap_append, hsame]
    rfl
  have hascii : ∀ c ∈ replaceChar 'Z' "+00:00".toList t.recordText.toList, c.toNat < 128 := by
    have hoffset : ∀ c ∈ "+00:00".toList, c.toNat < 128 := by decide
    intro c hc
    obtain ⟨d, hd, hc⟩ := List.mem_flatMap.mp hc
    split at hc
    · exact hoffset c hc
    · rw [List.mem_singleton.mp hc]
      exact (hchars d hd).ascii.1
  have hparts : readParts? (bytesOf (replaceChar 'Z' "+00:00".toList t.recordText.toList)) =
      none := by
    rw [bytesOf_ascii hascii, hzone]
    exact readParts?_eq_none (takeDigits?_year hyear _)
  refine ⟨String.ofList (replaceChar 'Z' "+00:00".toList t.recordText.toList), ?_⟩
  rw [readText, hstrip, readStripped, hparts]

/-- The moment that a text writes, stored and read again. -/
def reread (s : String) : Except TimestampFault Instant := do
  let t ← readText s
  readText t.recordText

/-- A moment comes back to the second, exactly if its year has four digits. -/
theorem reread_eq_ok_iff {s : String} {t : Instant} (ht : readText s = .ok t) :
    (reread s = .ok t.wholeSecond ↔ 1000 ≤ t.yearMonthDay.1) ∧
      (t.yearMonthDay.1 < 1000 → ∃ shown, reread s = .error (.malformed shown)) := by
  have hstored : reread s = readText t.recordText := by rw [reread, ht]; rfl
  rw [hstored]
  refine ⟨⟨?_, ?_⟩, readText_recordText_of_lt⟩
  · intro hread
    refine Nat.le_of_not_lt fun hlt => ?_
    obtain ⟨shown, hrefused⟩ := readText_recordText_of_lt hlt
    rw [hread] at hrefused
    cases hrefused
  · intro hyear
    rw [← t.recordText_wholeSecond]
    exact readText_recordText t.wholeSecond (by rwa [t.yearMonthDay_wholeSecond])
      t.wholeSecond_micros_mod

def leapDayNoon : Instant := ⟨63844806896789000, by decide⟩

theorem reread_eq_ok_iff_leapDay :
    readText " 2024-02-29 13:34:56.789+01:00" = .ok leapDayNoon ∧
      reread " 2024-02-29 13:34:56.789+01:00" = .ok leapDayNoon.wholeSecond := by
  have ht : readText " 2024-02-29 13:34:56.789+01:00" = .ok leapDayNoon := by decide +kernel
  exact ⟨ht, (reread_eq_ok_iff ht).1.mpr (by decide)⟩

/-- The start of the year 99 is not read back: the year is stored with two digits. -/
theorem reread_fails_year99 :
    readText "0099-01-01" = .ok ⟨3092601600000000, by decide⟩ ∧
      reread "0099-01-01" = .error (.malformed "99-01-01T00:00:00+00:00") := by
  decide +kernel

end Timestamp

end LinkShelf
