import LinkShelf.Calendar.Timestamp
import LinkShelf.Proofs.Calendar.Reckoning
import LinkShelf.Proofs.Number.Digits
import LinkShelf.Proofs.Text.Encoding
import Mathlib.Algebra.Ring.Nat
import Mathlib.Data.List.TakeDrop

/-!
Moments in the form in which records keep them. Main statement: a moment at the start of a second in
a year of four digits is read back from its text (`readText_recordText`).
-/

namespace LinkShelf

open Text

/-- ASCII digits that write a number. -/
structure Writes (digits : List Char) (n : Nat) : Prop where
  digit : ∀ c ∈ digits, c.isDigit = true
  value : numberOf digits = n

/-- A character that stays as it is when a timestamp is read. -/
def IsPlain (c : Char) : Prop := c.toNat < 128 ∧ c ≠ 'Z' ∧ isBlank c = false

theorem isPlain_of_isDigit {c : Char} (hdigit : c.isDigit = true) : IsPlain c := by
  have hrange : 48 ≤ c.toNat ∧ c.toNat ≤ 57 := by
    simpa [Char.isDigit, UInt32.le_iff_toNat_le] using hdigit
  refine ⟨by omega, ?_, ?_⟩
  · rintro rfl
    simp at hdigit
  · simp only [isBlank, Bool.or_eq_false_iff, Bool.and_eq_false_iff, decide_eq_false_iff_not,
      beq_eq_false_iff_ne]
    omega

theorem Writes.plain {digits : List Char} {n : Nat} (h : Writes digits n) {c : Char}
    (hc : c ∈ digits) : IsPlain c :=
  isPlain_of_isDigit (h.digit c hc)

theorem writes_paddedNumber (width n : Nat) : Writes (paddedNumber width n).toList n := by
  have hdigits : ∀ c ∈ (paddedNumber width n).toList, c.isDigit = true := by
    intro c hc
    rw [paddedNumber, String.toList_ofList, List.mem_append] at hc
    rcases hc with hc | hc
    · rw [List.eq_of_mem_replicate hc]
      rfl
    · exact Number.isDigit_of_mem_toDigits hc
  refine ⟨hdigits, ?_⟩
  rw [Number.numberOf_eq_ofDigitChars hdigits, paddedNumber, String.toList_ofList,
    Nat.ofDigitChars_append, Nat.ofDigitChars_replicate_zero, Nat.mul_zero,
    Nat.ofDigitChars_ten_toDigits]

theorem length_paddedNumber {width n : Nat} (hwidth : 0 < width) (hn : n < 10 ^ width) :
    (paddedNumber width n).toList.length = width := by
  have hle := (Nat.length_toDigits_le_iff (b := 10) (by decide) hwidth).mpr hn
  rw [paddedNumber, String.toList_ofList, List.length_append, List.length_replicate]
  omega

theorem exists_twoDigits {n : Nat} (hn : n < 100) :
    ∃ a b, (paddedNumber 2 n).toList = [a, b] ∧ Writes [a, b] n := by
  have hlength : (paddedNumber 2 n).toList.length = 2 := length_paddedNumber (by decide) hn
  have hwrites := writes_paddedNumber 2 n
  match htext : (paddedNumber 2 n).toList, hlength with
  | [a, b], _ => exact ⟨a, b, rfl, htext ▸ hwrites⟩

/-- A year from 1000 on needs no padding. -/
theorem exists_fourDigits {n : Nat} (hleast : 1000 ≤ n) (hgreatest : n ≤ 9999) :
    ∃ a b c d, (paddedNumber 0 n).toList = [a, b, c, d] ∧ Writes [a, b, c, d] n := by
  have hle := (Nat.length_toDigits_le_iff (b := 10) (n := n) (k := 4) (by decide)
    (by decide)).mpr (by omega)
  have hge := mt (Nat.length_toDigits_le_iff (b := 10) (n := n) (k := 3) (by decide)
    (by decide)).mp (by omega)
  have hlength : (paddedNumber 0 n).toList.length = 4 := by
    rw [paddedNumber, String.toList_ofList, List.length_append, List.length_replicate]
    omega
  have hwrites := writes_paddedNumber 0 n
  match htext : (paddedNumber 0 n).toList, hlength with
  | [a, b, c, d], _ => exact ⟨a, b, c, d, rfl, htext ▸ hwrites⟩

namespace Timestamp

theorem takeDigits?_append {digits : List Char} {n : Nat} (h : Writes digits n)
    (rest : List Char) : takeDigits? digits.length (digits ++ rest) = some (n, rest) := by
  have hall : digits.all Char.isDigit = true := List.all_eq_true.mpr h.digit
  simp [takeDigits?, hall, h.value]

theorem takeDigits?_two {a b : Char} {n : Nat} (h : Writes [a, b] n) (rest : List Char) :
    takeDigits? 2 (a :: b :: rest) = some (n, rest) :=
  takeDigits?_append h rest

theorem takeDigits?_four {a b c d : Char} {n : Nat} (h : Writes [a, b, c, d] n)
    (rest : List Char) : takeDigits? 4 (a :: b :: c :: d :: rest) = some (n, rest) :=
  takeDigits?_append h rest

section

variable {y₁ y₂ y₃ y₄ m₁ m₂ d₁ d₂ h₁ h₂ i₁ i₂ s₁ s₂ : Char}
variable {year month day hour minute second : Nat}

theorem readDate?_hyphens (hyear : Writes [y₁, y₂, y₃, y₄] year) (hmonth : Writes [m₁, m₂] month)
    (hday : Writes [d₁, d₂] day) (rest : List Char) (length : Nat) :
    readDate? (y₁ :: y₂ :: y₃ :: y₄ :: '-' :: m₁ :: m₂ :: '-' :: d₁ :: d₂ :: rest) length =
      some (year, month, day) := by
  have hweek : m₁ ≠ 'W' := by
    rintro rfl
    simpa using hmonth.digit 'W' (by simp)
  simp [readDate?, takeDigits?_four hyear, takeDigits?_two hmonth, takeDigits?_two hday, skip?,
    hweek]

theorem readClock?_seconds (hhour : Writes [h₁, h₂] hour) (hminute : Writes [i₁, i₂] minute)
    (hsecond : Writes [s₁, s₂] second) (boundary : Char) :
    readClock? [h₁, h₂, ':', i₁, i₂, ':', s₁, s₂] boundary =
      some ⟨hour, minute, second, 0, boundary != '\x00'⟩ := by
  simp [readClock?, takeDigits?_two hhour, takeDigits?_two hminute, takeDigits?_two hsecond]

theorem readTime?_universal (hhour : Writes [h₁, h₂] hour) (hminute : Writes [i₁, i₂] minute)
    (hsecond : Writes [s₁, s₂] second) :
    readTime? [h₁, h₂, ':', i₁, i₂, ':', s₁, s₂, '+', '0', '0', ':', '0', '0'] =
      some (⟨hour, minute, second, 0, true⟩, some 0) := by
  have hsign : ∀ c ∈ [h₁, h₂, ':', i₁, i₂, ':', s₁, s₂], decide (c ≠ '+' ∧ c ≠ '-') = true := by
    have hdigit : ∀ c : Char, c.isDigit = true → decide (c ≠ '+' ∧ c ≠ '-') = true := by
      intro c hc
      rw [decide_eq_true_eq]
      constructor <;>
      · rintro rfl
        simp at hc
    intro c hc
    simp only [List.mem_cons, List.not_mem_nil, or_false] at hc
    rcases hc with rfl | rfl | rfl | rfl | rfl | rfl | rfl | rfl
    · exact hdigit _ (hhour.digit _ (by simp))
    · exact hdigit _ (hhour.digit _ (by simp))
    · decide
    · exact hdigit _ (hminute.digit _ (by simp))
    · exact hdigit _ (hminute.digit _ (by simp))
    · decide
    · exact hdigit _ (hsecond.digit _ (by simp))
    · exact hdigit _ (hsecond.digit _ (by simp))
  have hspan : [h₁, h₂, ':', i₁, i₂, ':', s₁, s₂, '+', '0', '0', ':', '0', '0'].span
      (fun c => decide (c ≠ '+' ∧ c ≠ '-')) =
        ([h₁, h₂, ':', i₁, i₂, ':', s₁, s₂], ['+', '0', '0', ':', '0', '0']) := by
    rw [List.span_eq_takeWhile_dropWhile,
      show [h₁, h₂, ':', i₁, i₂, ':', s₁, s₂, '+', '0', '0', ':', '0', '0'] =
        [h₁, h₂, ':', i₁, i₂, ':', s₁, s₂] ++ ['+', '0', '0', ':', '0', '0'] from rfl,
      List.takeWhile_append_of_pos hsign, List.dropWhile_append_of_pos hsign]
    rfl
  have hzone : readClock? ['0', '0', ':', '0', '0'] '\x00' = some ⟨0, 0, 0, 0, false⟩ := by decide
  simp only [readTime?, hspan]
  simp [readClock?_seconds hhour hminute hsecond, hzone]

theorem dateLength?_hyphens (hmonth : Writes [m₁, m₂] month) {rest : List Char} :
    dateLength? (y₁ :: y₂ :: y₃ :: y₄ :: '-' :: m₁ :: m₂ :: '-' :: rest) = some 10 := by
  have hweek : m₁ ≠ 'W' := by
    rintro rfl
    simpa using hmonth.digit 'W' (by simp)
  simp [dateLength?, hweek]

end

end Timestamp

namespace Instant

theorem ofMicros?_micros (t : Instant) : ofMicros? (t.micros : Int) = some t := by
  have hrange : 0 ≤ (t.micros : Int) ∧ (t.micros : Int).toNat < dayCount * microsPerDay :=
    ⟨Int.natCast_nonneg _, t.bounded⟩
  rw [ofMicros?, dif_pos hrange]
  simp only [Int.toNat_natCast]

/-- The date of a moment is one of the calendar, and its day number is that of the moment. -/
theorem exists_date (t : Instant) : ∃ d : Date,
    Date.of? t.yearMonthDay.1 t.yearMonthDay.2.1 t.yearMonthDay.2.2 = some d ∧
      d.dayNumber = t.micros / microsPerDay :=
  of?_reckoned t.day_lt_dayCount

theorem yearMonthDay_bounds (t : Instant) : t.yearMonthDay.1 ≤ 9999 ∧ 1 ≤ t.yearMonthDay.2.1 ∧
    t.yearMonthDay.2.1 ≤ 12 ∧ t.yearMonthDay.2.2 < 100 := by
  obtain ⟨d, hd, -⟩ := t.exists_date
  rw [Date.of?] at hd
  split at hd
  · rename_i h
    obtain ⟨-, hyear, hleast, hmonth, -, hday⟩ := h
    have hlength := daysInMonth_bounds (isLeapYear t.yearMonthDay.1) t.yearMonthDay.2.1
    exact ⟨hyear, hleast, hmonth, by omega⟩
  · simp at hd

theorem timeOfDay_bounds (t : Instant) :
    t.timeOfDay.hour ≤ 23 ∧ t.timeOfDay.minute ≤ 59 ∧ t.timeOfDay.second ≤ 59 := by
  have hday : t.micros % microsPerDay < 86400000000 := Nat.mod_lt _ (by decide)
  simp only [timeOfDay, TimeOfDay.ofMicros, microsPerSecond]
  omega

/-- The characters of the text of a moment, the digits of each number on their own. -/
theorem exists_recordText (t : Instant) (hyear : 1000 ≤ t.yearMonthDay.1) :
    ∃ y₁ y₂ y₃ y₄ m₁ m₂ d₁ d₂ h₁ h₂ i₁ i₂ s₁ s₂,
      t.recordText.toList = [y₁, y₂, y₃, y₄, '-', m₁, m₂, '-', d₁, d₂, 'T', h₁, h₂, ':', i₁, i₂,
        ':', s₁, s₂, 'Z'] ∧
      Writes [y₁, y₂, y₃, y₄] t.yearMonthDay.1 ∧ Writes [m₁, m₂] t.yearMonthDay.2.1 ∧
      Writes [d₁, d₂] t.yearMonthDay.2.2 ∧ Writes [h₁, h₂] t.timeOfDay.hour ∧
      Writes [i₁, i₂] t.timeOfDay.minute ∧ Writes [s₁, s₂] t.timeOfDay.second := by
  obtain ⟨hgreatest, -, hmonth, hday⟩ := t.yearMonthDay_bounds
  obtain ⟨hhour, hminute, hsecond⟩ := t.timeOfDay_bounds
  obtain ⟨y₁, y₂, y₃, y₄, hyearText, hy⟩ := exists_fourDigits hyear hgreatest
  obtain ⟨m₁, m₂, hmonthText, hm⟩ := exists_twoDigits (n := t.yearMonthDay.2.1) (by omega)
  obtain ⟨d₁, d₂, hdayText, hd⟩ := exists_twoDigits hday
  obtain ⟨h₁, h₂, hhourText, hh⟩ := exists_twoDigits (n := t.timeOfDay.hour) (by omega)
  obtain ⟨i₁, i₂, hminuteText, hi⟩ := exists_twoDigits (n := t.timeOfDay.minute) (by omega)
  obtain ⟨s₁, s₂, hsecondText, hs⟩ := exists_twoDigits (n := t.timeOfDay.second) (by omega)
  refine ⟨y₁, y₂, y₃, y₄, m₁, m₂, d₁, d₂, h₁, h₂, i₁, i₂, s₁, s₂, ?_, hy, hm, hd, hh, hi, hs⟩
  simp only [recordText, TimeOfDay.clockText, String.toList_append, hyearText, hmonthText,
    hdayText, hhourText, hminuteText, hsecondText]
  rfl

end Instant

namespace Timestamp

theorem readParts?_stamp {y₁ y₂ y₃ y₄ m₁ m₂ d₁ d₂ h₁ h₂ i₁ i₂ s₁ s₂ : Char}
    {year month day hour minute second : Nat} (hyear : Writes [y₁, y₂, y₃, y₄] year)
    (hmonth : Writes [m₁, m₂] month) (hday : Writes [d₁, d₂] day) (hhour : Writes [h₁, h₂] hour)
    (hminute : Writes [i₁, i₂] minute) (hsecond : Writes [s₁, s₂] second) :
    readParts? [y₁, y₂, y₃, y₄, '-', m₁, m₂, '-', d₁, d₂, 'T', h₁, h₂, ':', i₁, i₂, ':', s₁, s₂,
        '+', '0', '0', ':', '0', '0'] =
      some ((year, month, day), ⟨hour, minute, second, 0, true⟩, some 0) := by
  have hseparator : separatorLength 'T' = 1 := by decide
  simp [readParts?, dateLength?_hyphens hmonth, readDate?_hyphens hyear hmonth hday, hseparator,
    readTime?_universal hhour hminute hsecond]

theorem bytesOf_ascii {cs : List Char} (hcs : ∀ c ∈ cs, c.toNat < 128) : bytesOf cs = cs := by
  rw [bytesOf, toList_toUTF8_ascii hcs, List.map_map]
  conv_rhs => rw [← List.map_id cs]
  apply List.map_congr_left
  intro c hc
  have hbyte : (UInt8.ofNat c.toNat).toNat = c.toNat := by
    rw [UInt8.toNat_ofNat', Nat.mod_eq_of_lt (Nat.lt_trans (hcs c hc) (by decide))]
  simp only [Function.comp_apply, hbyte, Char.ofNat_toNat, id_eq]

theorem replaceChar_eq_self {old : Char} {new cs : List Char} (hcs : old ∉ cs) :
    replaceChar old new cs = cs := by
  induction cs with
  | nil => rfl
  | cons c cs ih =>
      rw [List.mem_cons, not_or] at hcs
      have htail : replaceChar old new cs = cs := ih hcs.2
      simp only [replaceChar, List.flatMap_cons] at htail ⊢
      rw [htail, if_neg (Ne.symm hcs.1)]
      rfl

theorem replaceChar_last {old : Char} {front : List Char} (new : List Char)
    (hfront : old ∉ front) : replaceChar old new (front ++ [old]) = front ++ new := by
  have hself : replaceChar old new front = front := replaceChar_eq_self hfront
  rw [replaceChar] at hself ⊢
  rw [List.flatMap_append, hself]
  simp

/-- The microseconds of a whole second are those of its day and its time of day. -/
theorem micros_eq_clock (t : Instant) (hwhole : t.micros % microsPerSecond = 0) :
    (((t.micros / microsPerDay * 24 + t.timeOfDay.hour) * 60 + t.timeOfDay.minute) * 60 +
      t.timeOfDay.second) * microsPerSecond = t.micros := by
  simp only [microsPerSecond, microsPerDay, Instant.timeOfDay, TimeOfDay.ofMicros] at hwhole ⊢
  omega

theorem readStripped_of_parts {shown : String} {cs : List Char} {year month day : Nat}
    {clock : Clock} {offset : Option Int} {date : Date} {t : Instant}
    (hparts : readParts? (bytesOf cs) = some ((year, month, day), clock, offset))
    (hoffset : offset.getD 0 = 0) (hdate : Date.of? year month day = some date)
    (hyear : 1 ≤ year ∧ year ≤ 9999) (hmonth : 1 ≤ month ∧ month ≤ 12) (hhour : clock.hour ≤ 23)
    (hminute : clock.minute ≤ 59) (hsecond : clock.second ≤ 59)
    (hmicros : (((date.dayNumber * 24 + clock.hour) * 60 + clock.minute) * 60 + clock.second) *
      microsPerSecond + clock.micro = t.micros) : readStripped shown cs = .ok t := by
  rw [readStripped, hparts]
  refine (if_neg (by rw [hoffset]; decide)).trans ?_
  refine (if_neg (by omega)).trans ?_
  refine (if_neg (by omega)).trans ?_
  rw [hdate]
  refine (if_neg (Nat.not_lt.mpr hhour)).trans ?_
  refine (if_neg (Nat.not_lt.mpr hminute)).trans ?_
  refine (if_neg (Nat.not_lt.mpr hsecond)).trans ?_
  simp only [hmicros, hoffset, Int.sub_zero, Instant.ofMicros?_micros]

theorem readText_recordText (t : Instant) (hyear : 1000 ≤ t.yearMonthDay.1)
    (hwhole : t.micros % microsPerSecond = 0) : readText t.recordText = .ok t := by
  obtain ⟨y₁, y₂, y₃, y₄, m₁, m₂, d₁, d₂, h₁, h₂, i₁, i₂, s₁, s₂, htext, hy, hm, hd, hh, hi, hs⟩ :=
    t.exists_recordText hyear
  obtain ⟨hgreatest, hleast, hmonth, -⟩ := t.yearMonthDay_bounds
  obtain ⟨hhour, hminute, hsecond⟩ := t.timeOfDay_bounds
  obtain ⟨date, hdate, hnumber⟩ := t.exists_date
  have hplain : ∀ c ∈ [y₁, y₂, y₃, y₄, '-', m₁, m₂, '-', d₁, d₂, 'T', h₁, h₂, ':', i₁, i₂, ':', s₁,
      s₂], IsPlain c := by
    simp only [List.forall_mem_cons]
    exact ⟨hy.plain (by simp), hy.plain (by simp), hy.plain (by simp), hy.plain (by simp),
      by unfold IsPlain; decide, hm.plain (by simp), hm.plain (by simp), by unfold IsPlain; decide,
      hd.plain (by simp), hd.plain (by simp), by unfold IsPlain; decide, hh.plain (by simp),
      hh.plain (by simp), by unfold IsPlain; decide, hi.plain (by simp), hi.plain (by simp),
      by unfold IsPlain; decide, hs.plain (by simp), hs.plain (by simp), by simp⟩
  have hstrip : strip t.recordText.toList = t.recordText.toList := by
    rw [htext]
    refine strip_eq_self ?_ ?_
    · intro c hc
      obtain rfl : y₁ = c := by simpa using hc
      exact (hy.plain (by simp)).2.2
    · intro c hc
      obtain rfl : 'Z' = c := by simpa using hc
      decide
  have hzone : replaceChar 'Z' "+00:00".toList t.recordText.toList =
      [y₁, y₂, y₃, y₄, '-', m₁, m₂, '-', d₁, d₂, 'T', h₁, h₂, ':', i₁, i₂, ':', s₁, s₂] ++
        ['+', '0', '0', ':', '0', '0'] := by
    rw [htext]
    exact replaceChar_last _ fun hmem => (hplain 'Z' hmem).2.1 rfl
  have hoffset : ∀ c ∈ ['+', '0', '0', ':', '0', '0'], c.toNat < 128 := by simp
  have hbytes : bytesOf ([y₁, y₂, y₃, y₄, '-', m₁, m₂, '-', d₁, d₂, 'T', h₁, h₂, ':', i₁, i₂, ':',
      s₁, s₂] ++ ['+', '0', '0', ':', '0', '0']) = [y₁, y₂, y₃, y₄, '-', m₁, m₂, '-', d₁, d₂, 'T',
        h₁, h₂, ':', i₁, i₂, ':', s₁, s₂, '+', '0', '0', ':', '0', '0'] := by
    apply bytesOf_ascii
    intro c hc
    rcases List.mem_append.mp hc with hc | hc
    · exact (hplain c hc).1
    · exact hoffset c hc
  rw [readText, hstrip, hzone]
  -- the clock stays a name: with its numbers in sight the kernel would count microseconds
  obtain ⟨clock, hclock⟩ : ∃ clock : Clock, clock =
    ⟨t.timeOfDay.hour, t.timeOfDay.minute, t.timeOfDay.second, 0, true⟩ := ⟨_, rfl⟩
  have hparts := readParts?_stamp hy hm hd hh hi hs
  rw [← hbytes, ← hclock] at hparts
  have hclocks : clock.hour = t.timeOfDay.hour ∧ clock.minute = t.timeOfDay.minute ∧
      clock.second = t.timeOfDay.second ∧ clock.micro = 0 := by
    rw [hclock]
    exact ⟨rfl, rfl, rfl, rfl⟩
  obtain ⟨hclockHour, hclockMinute, hclockSecond, hclockMicro⟩ := hclocks
  refine readStripped_of_parts hparts rfl hdate ⟨by omega, hgreatest⟩ ⟨hleast, hmonth⟩ (by omega)
    (by omega) (by omega) ?_
  rw [hclockHour, hclockMinute, hclockSecond, hclockMicro, hnumber, Nat.add_zero]
  exact micros_eq_clock t hwhole

end Timestamp

end LinkShelf
