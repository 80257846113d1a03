import LinkShelf.Calendar.DayText
import LinkShelf.Proofs.Calendar.RecordText
import LinkShelf.Proofs.Text.Blank
import Mathlib.Data.List.Basic
import Mathlib.Tactic.IntervalCases

/-!
Dates as people write them. Main statement: a date in either of its forms, with the month and the
day padded or not, is read as the day that it names (`readAbsolute_of_isWrittenAs`).
-/

namespace LinkShelf

/-- The date as year, month and day with a separator between. The month and the day have at least so
many digits. -/
def Date.written (d : Date) (separator : Char) (monthWidth dayWidth : Nat) : String :=
  paddedNumber 4 d.year ++ String.singleton separator ++ paddedNumber monthWidth d.month ++
    String.singleton separator ++ paddedNumber dayWidth d.day

/-- Whether a text writes a date: a year of four digits, and the month and the day with or without
leading zeros. -/
def Date.IsWrittenAs (d : Date) (text : String) : Prop :=
  ∃ separator ∈ ['/', '-'], ∃ monthWidth ∈ [1, 2], ∃ dayWidth ∈ [1, 2],
    text = d.written separator monthWidth dayWidth

theorem Date.of?_self (d : Date) : of? d.year d.month d.day = some d :=
  dif_pos ⟨d.year_pos, d.year_le, d.month_pos, d.month_le, d.day_pos, d.day_le⟩

namespace DayText

open Text

variable {cs rest : List Char} {separator : Char}

/-! ## The parts of a date -/

theorem isDigit_of_ascii {c : Char} (hc : c.isDigit = true) : isDigit c = true := by
  rw [isDigit, Number.digitValue?_of_isDigit hc]
  rfl

theorem year?_eq_none (hcs : ∀ c, cs.head? = some c → isDigit c = false) : year? cs = none := by
  refine if_neg ?_
  rintro ⟨hlength, hall⟩
  cases cs with
  | nil => simp at hlength
  | cons c rest =>
      rw [List.take_succ_cons, List.all_cons, hcs c rfl] at hall
      cases hall

theorem separated?_eq_none (hcs : ∀ c, cs.head? = some c → isDigit c = false) (separator : Char) :
    separated? separator cs = none := by
  rw [separated?, year?_eq_none hcs]
  rfl

theorem year?_paddedNumber {year : Nat} (hlast : year ≤ 9999) (rest : List Char) :
    year? ((paddedNumber 4 year).toList ++ rest) = some (year, rest) := by
  have hwrites := writes_paddedNumber 4 year
  have hlength : (paddedNumber 4 year).toList.length = 4 :=
    length_paddedNumber (by decide) (Nat.lt_succ_of_le hlast)
  have hall : (paddedNumber 4 year).toList.all isDigit = true :=
    List.all_eq_true.mpr fun c hc => isDigit_of_ascii (hwrites.digit c hc)
  rw [year?, List.take_left' hlength, List.drop_left' hlength]
  simp only [hlength, hall, and_self, if_true, hwrites.value]

theorem monthThen?_paddedNumber (hseparator : separator ∈ ['/', '-']) {width month : Nat}
    (hwidth : width ∈ [1, 2]) (hfirst : 1 ≤ month) (hlast : month ≤ 12) (rest : List Char) :
    monthThen? separator ((paddedNumber width month).toList ++ separator :: rest) =
      some (month, rest) := by
  rw [paddedNumber, String.toList_ofList]
  rcases List.mem_pair.mp hseparator with rfl | rfl <;>
  · rcases List.mem_pair.mp hwidth with rfl | rfl <;>
    · interval_cases month <;> rfl

theorem day?_paddedNumber : ∀ width ∈ [1, 2], ∀ day < 32, 1 ≤ day →
    day? (paddedNumber width day).toList = some (day, []) := by
  simp only [paddedNumber, String.toList_ofList]
  decide

/-! ## Dates -/

variable {d : Date}

theorem toList_written (d : Date) (separator : Char) (monthWidth dayWidth : Nat) :
    (d.written separator monthWidth dayWidth).toList =
      (paddedNumber 4 d.year).toList ++ separator :: ((paddedNumber monthWidth d.month).toList ++
        separator :: (paddedNumber dayWidth d.day).toList) := by
  simp [Date.written]

theorem day_lt (d : Date) : d.day < 32 :=
  Nat.lt_succ_of_le (Nat.le_trans d.day_le (daysInMonth_bounds _ _).2)

theorem separated?_written (hseparator : separator ∈ ['/', '-']) {monthWidth dayWidth : Nat}
    (hmonth : monthWidth ∈ [1, 2]) (hday : dayWidth ∈ [1, 2]) :
    separated? separator (d.written separator monthWidth dayWidth).toList = some d := by
  rw [toList_written, separated?, year?_paddedNumber d.year_le]
  simp only [Option.bind_eq_bind, Option.bind_some, skip?, if_true,
    monthThen?_paddedNumber hseparator hmonth d.month_pos d.month_le,
    day?_paddedNumber dayWidth hday d.day (day_lt d) d.day_pos, List.isEmpty_nil]
  exact d.of?_self

/-- Dates with hyphens are not taken for dates with slashes. -/
theorem separated?_slash_written {monthWidth dayWidth : Nat} :
    separated? '/' (d.written '-' monthWidth dayWidth).toList = none := by
  rw [toList_written, separated?, year?_paddedNumber d.year_le]
  rfl

theorem mem_written {monthWidth dayWidth : Nat} {c : Char}
    (hc : c ∈ (d.written separator monthWidth dayWidth).toList) :
    c.isDigit = true ∨ c = separator := by
  have hdigit : ∀ width n, c ∈ (paddedNumber width n).toList → c.isDigit = true := fun width n =>
    (writes_paddedNumber width n).digit c
  rw [toList_written] at hc
  simp only [List.mem_append, List.mem_cons] at hc
  rcases hc with hc | rfl | hc | rfl | hc
  · exact .inl (hdigit _ _ hc)
  · exact .inr rfl
  · exact .inl (hdigit _ _ hc)
  · exact .inr rfl
  · exact .inl (hdigit _ _ hc)

theorem exists_digit_of_isWrittenAs {text : String} (htext : d.IsWrittenAs text) :
    ∃ c cs, text.toList = c :: cs ∧ c.isDigit = true := by
  obtain ⟨separator, -, monthWidth, -, dayWidth, -, rfl⟩ := htext
  have hlength : (paddedNumber 4 d.year).toList.length = 4 :=
    length_paddedNumber (by decide) (Nat.lt_succ_of_le d.year_le)
  have hdigit := (writes_paddedNumber 4 d.year).digit
  rw [toList_written]
  generalize (paddedNumber 4 d.year).toList = digits at *
  cases digits with
  | nil => cases hlength
  | cons c cs => exact ⟨c, _, rfl, hdigit c (by simp)⟩

theorem isBlank_of_isWrittenAs {text : String} (htext : d.IsWrittenAs text) :
    ∀ c ∈ text.toList, isBlank c = false := by
  obtain ⟨separator, hseparator, monthWidth, -, dayWidth, -, rfl⟩ := htext
  intro c hc
  rcases mem_written hc with hdigit | rfl
  · exact (isPlain_of_isDigit hdigit).2.2
  · rcases List.mem_pair.mp hseparator with rfl | rfl
    · rfl
    · rfl

/-- A written date is read as the day that it names. -/
theorem readAbsolute_of_isWrittenAs {text : String} (htext : d.IsWrittenAs text) :
    readAbsolute text = .ok d := by
  have hstrip : strip text.toList = text.toList := strip_of_forall (isBlank_of_isWrittenAs htext)
  rw [readAbsolute, hstrip]
  obtain ⟨separator, hseparator, monthWidth, hmonth, dayWidth, hday, rfl⟩ := htext
  rcases List.mem_pair.mp hseparator with rfl | rfl
  · rw [separated?_written hseparator hmonth hday]
    rfl
  · rw [separated?_slash_written, separated?_written hseparator hmonth hday]
    rfl

end DayText

end LinkShelf
