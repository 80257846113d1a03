import LinkShelf.Proofs.Calendar.Reckoning
import LinkShelf.Proofs.Calendar.WrittenDays
import LinkShelf.Proofs.Outcome
import LinkShelf.Proofs.Text.Digits

/-!
The day before the first day of the calendar. Main statement: it is asked for by one word, on one
day (`readRelative_eq_noYesterday_iff`); every other way back over the beginning of the calendar is
refused as out of range.
-/

namespace LinkShelf

namespace DayText

open Text

variable {present : Present} {s : String}

/-- Whether a text is the word for the day before today. -/
def NamesYesterday (s : String) : Prop := lower (strip s.toList) = "yesterday".toList

instance (s : String) : Decidable (NamesYesterday s) := inferInstanceAs (Decidable (_ = _))

theorem number_ne_noYesterday (digits : List Char) : number digits ≠ .error .noYesterday := by
  unfold number
  split <;> nofun

theorem monthsBefore_ne_noYesterday (text : String) (d : Date) (months : Nat) :
    monthsBefore text d months ≠ .error .noYesterday := by
  unfold monthsBefore
  split <;> nofun

theorem daysBefore_ne_noYesterday (text : String) (d : Date) (days : Nat) :
    daysBefore text d days ≠ .error .noYesterday := by
  unfold daysBefore
  split <;> nofun

theorem unitsBefore_ne_noYesterday (text : String) (today : Date) (n : Nat) (unit : DayUnit) :
    unitsBefore text today n unit ≠ .error .noYesterday := by
  cases unit with
  | day => exact daysBefore_ne_noYesterday text today n
  | week => exact daysBefore_ne_noYesterday text today (7 * n)
  | month => exact monthsBefore_ne_noYesterday text today n
  | year => exact monthsBefore_ne_noYesterday text today (12 * n)

theorem durationBefore_ne_noYesterday (text : String) (p : Duration) :
    durationBefore text present p ≠ .error .noYesterday := by
  apply bind_ne_error (number_ne_noYesterday p.years); intro years
  apply bind_ne_error (number_ne_noYesterday p.months); intro months
  apply bind_ne_error (number_ne_noYesterday p.weeks); intro weeks
  apply bind_ne_error (number_ne_noYesterday p.days); intro days
  apply bind_ne_error (number_ne_noYesterday p.hours); intro hours
  apply bind_ne_error (number_ne_noYesterday p.minutes); intro minutes
  apply bind_ne_error (number_ne_noYesterday p.seconds); intro seconds
  apply bind_ne_error (monthsBefore_ne_noYesterday text present.today _); intro start
  dsimp only
  split
  · nofun
  · split <;> nofun

theorem exists_yesterday_iff (d : Date) : (∃ e, d.addDays? (-1) = some e) ↔ 0 < d.dayNumber := by
  rw [Date.addDays?]
  split
  · simp only [reduceCtorEq, exists_false, false_iff]
    omega
  · rw [← Option.isSome_iff_exists, Date.ofDayNumber?_isSome_iff]
    have := d.dayNumber_lt
    omega

/-- The day before today is missing only for its own word, and only today is the first day. -/
theorem readRelative_eq_noYesterday_iff : readRelative present s = .error .noYesterday ↔
    present.today.dayNumber = 0 ∧ NamesYesterday s := by
  rw [readRelative, NamesYesterday]
  generalize lower (strip s.toList) = cs
  by_cases hyesterday : cs = "yesterday".toList
  · have htoday : cs ≠ "today".toList := by
      rw [hyesterday]
      decide
    have hfirst := exists_yesterday_iff present.today
    rw [if_neg htoday, if_pos hyesterday]
    cases hfound : present.today.addDays? (-1) with
    | some d =>
        have hpos := hfirst.mp ⟨d, hfound⟩
        simp only [reduceCtorEq, false_iff]
        omega
    | none =>
        have hzero := mt hfirst.mpr (by simp [hfound])
        simp only [hyesterday, and_true, true_iff]
        omega
  · refine iff_of_false ?_ fun h => hyesterday h.2
    rw [if_neg hyesterday]
    split
    · nofun
    · split
      · apply bind_ne_error (number_ne_noYesterday _)
        intro n
        apply unitsBefore_ne_noYesterday
      · split
        · apply durationBefore_ne_noYesterday
        · nofun

/-- The word is no date: dates start with a digit, and case leaves digits alone. -/
theorem readAbsolute_of_namesYesterday (hs : NamesYesterday s) :
    ∃ text, readAbsolute s = .error (.notADate text) := by
  have hhead : ∀ c, (strip s.toList).head? = some c → isDigit c = false := by
    intro c hc
    rw [← Bool.not_eq_true]
    intro hdigit
    obtain ⟨rest, hrest⟩ := List.head?_eq_some_iff.mp hc
    have hlower : lower (strip s.toList) = c :: lowerAfter [c] rest := by
      rw [hrest]
      exact lowerAfter_append (a := [c]) (by simpa using isLower_of_isDigit hdigit)
    rw [hs] at hlower
    rw [← (List.cons.inj hlower).1] at hdigit
    revert hdigit
    decide
  refine ⟨String.ofList (strip s.toList), ?_⟩
  rw [readAbsolute, separated?_eq_none hhead, separated?_eq_none hhead]
  rfl

theorem read_eq_noYesterday_iff : read present s = .error .noYesterday ↔
    present.today.dayNumber = 0 ∧ NamesYesterday s := by
  rw [← readRelative_eq_noYesterday_iff]
  constructor
  · intro h
    rw [read] at h
    split at h
    · cases h
    · split at h
      · cases h
      · next hrelative => exact hrelative
      · cases h
  · intro h
    obtain ⟨text, habsolute⟩ :=
      readAbsolute_of_namesYesterday (readRelative_eq_noYesterday_iff.mp h).2
    rw [read, habsolute, h]

end DayText

end LinkShelf
