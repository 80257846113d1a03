import LinkShelf.Calendar.Instant

/-!
The calendar reckoned forwards and back. Main statement: the year, month and day of a day number
make a date, and it has that day number (`of?_reckoned`).
-/

namespace LinkShelf

def daysInYear (year : Nat) : Nat := if isLeapYear year then 366 else 365

/-- The eras of four centuries, the centuries, the cycles of four years and the years before a day.
Only the last year of a cycle can have a day more, and the last cycle of a century only in the last
century of an era. -/
structure Reckoning (n era century cycle year rest : Nat) : Prop where
  sum : n = 146097 * era + 36524 * century + 1461 * cycle + 365 * year + rest
  century_le : century ≤ 3
  cycle_le : cycle ≤ 24
  year_le : year ≤ 3
  rest_le : rest ≤ 364 ∨ (rest = 365 ∧ year = 3 ∧ (cycle = 24 → century = 3))

theorem exists_reckoning (n : Nat) : ∃ era century cycle year rest,
    Reckoning n era century cycle year rest ∧
      yearAndRest n = (400 * era + 100 * century + 4 * cycle + year + 1, rest) := by
  refine ⟨_, _, _, _, _, ?_, rfl⟩
  have hcentury : n % 146097 - 36524 * min 3 (n % 146097 / 36524) ≤ 36524 ∧
      (min 3 (n % 146097 / 36524) < 3 →
        n % 146097 - 36524 * min 3 (n % 146097 / 36524) < 36524) := by
    omega
  have hsum : n = 146097 * (n / 146097) + 36524 * min 3 (n % 146097 / 36524) +
      (n % 146097 - 36524 * min 3 (n % 146097 / 36524)) := by
    omega
  have hthree : min 3 (n % 146097 / 36524) ≤ 3 := Nat.min_le_left _ _
  generalize min 3 (n % 146097 / 36524) = century at *
  generalize n % 146097 - 36524 * century = days at *
  constructor <;> omega

section

variable {n era century cycle year rest : Nat}

theorem Reckoning.quotients (h : Reckoning n era century cycle year rest) :
    (400 * era + 100 * century + 4 * cycle + year) / 4 = 100 * era + 25 * century + cycle ∧
      (400 * era + 100 * century + 4 * cycle + year) / 100 = 4 * era + century ∧
      (400 * era + 100 * century + 4 * cycle + year) / 400 = era := by
  obtain ⟨-, hcentury, hcycle, hyear, -⟩ := h
  omega

theorem Reckoning.daysBeforeYear_add (h : Reckoning n era century cycle year rest) :
    daysBeforeYear (400 * era + 100 * century + 4 * cycle + year + 1) + rest = n := by
  obtain ⟨hfour, hhundred, hera⟩ := h.quotients
  have hsum := h.sum
  simp only [daysBeforeYear, Nat.add_sub_cancel, hfour, hhundred, hera]
  omega

theorem Reckoning.isLeapYear (h : Reckoning n era century cycle year rest) (hrest : rest = 365) :
    isLeapYear (400 * era + 100 * century + 4 * cycle + year + 1) = true := by
  obtain ⟨-, hcentury, hcycle, -, hlast⟩ := h
  have hyear : year = 3 ∧ (cycle = 24 → century = 3) := by omega
  simp only [LinkShelf.isLeapYear, Bool.and_eq_true, Bool.or_eq_true, beq_iff_eq, bne_iff_ne]
  omega

theorem Reckoning.rest_lt (h : Reckoning n era century cycle year rest) :
    rest < daysInYear (400 * era + 100 * century + 4 * cycle + year + 1) := by
  have hle := h.rest_le
  by_cases hrest : rest = 365
  · rw [daysInYear, h.isLeapYear hrest, if_pos rfl]
    omega
  · unfold daysInYear
    split <;> omega

end

/-- The days of a year from a month on are those of the months that are left. -/
def daysFromMonth (leap : Bool) (month : Nat) : Nat → Nat
  | 0 => 0
  | count + 1 => daysInMonth leap month + daysFromMonth leap (month + 1) count

theorem daysInMonth_bounds (leap : Bool) (month : Nat) :
    28 ≤ daysInMonth leap month ∧ daysInMonth leap month ≤ 31 := by
  unfold daysInMonth
  split
  · split <;> omega
  · split <;> omega

theorem daysBeforeMonth_succ (leap : Bool) {month : Nat} (hmonth : 1 ≤ month) :
    daysBeforeMonth leap (month + 1) = daysBeforeMonth leap month + daysInMonth leap month := by
  obtain ⟨n, rfl⟩ := Nat.exists_eq_add_of_le' hmonth
  rfl

theorem monthAndDay_spec (leap : Bool) (month n fuel : Nat) (hmonth : 1 ≤ month)
    (hn : n < daysFromMonth leap month (fuel + 1)) :
    month ≤ (monthAndDay leap month n fuel).1 ∧
      (monthAndDay leap month n fuel).1 ≤ month + fuel ∧
      1 ≤ (monthAndDay leap month n fuel).2 ∧
      (monthAndDay leap month n fuel).2 ≤ daysInMonth leap (monthAndDay leap month n fuel).1 ∧
      daysBeforeMonth leap (monthAndDay leap month n fuel).1 +
          ((monthAndDay leap month n fuel).2 - 1) = daysBeforeMonth leap month + n := by
  induction fuel generalizing month n with
  | zero =>
      simp only [daysFromMonth, Nat.add_zero] at hn
      simp only [monthAndDay]
      omega
  | succ fuel ih =>
      rw [monthAndDay]
      split
      · simp only
        omega
      · rename_i hnext
        rw [daysFromMonth] at hn
        obtain ⟨hleast, hgreatest, hday, hdays, hsum⟩ :=
          ih (month + 1) (n - daysInMonth leap month) (by omega) (by omega)
        refine ⟨by omega, by omega, hday, hdays, ?_⟩
        rw [hsum, daysBeforeMonth_succ leap hmonth]
        omega

theorem daysFromMonth_first (year : Nat) :
    daysFromMonth (isLeapYear year) 1 12 = daysInYear year := by
  unfold daysInYear
  cases isLeapYear year <;> decide

/-- The year, month and day of a day number. -/
def reckoned (n : Nat) : Nat × Nat × Nat :=
  ((yearAndRest n).1, monthAndDay (isLeapYear (yearAndRest n).1) 1 (yearAndRest n).2 11)

theorem of?_reckoned {n : Nat} (hn : n < dayCount) :
    ∃ d, Date.of? (reckoned n).1 (reckoned n).2.1 (reckoned n).2.2 = some d ∧
      d.dayNumber = n := by
  obtain ⟨era, century, cycle, year, rest, hreckoning, hyear⟩ := exists_reckoning n
  have hsum := hreckoning.daysBeforeYear_add
  have hyears : 400 * era + 100 * century + 4 * cycle + year + 1 ≤ 9999 := by
    obtain ⟨hdays, hcentury, hcycle, hyear, -⟩ := hreckoning
    rw [dayCount] at hn
    omega
  obtain ⟨hleast, hgreatest, hday, hdays, hmonths⟩ := monthAndDay_spec
    (isLeapYear (400 * era + 100 * century + 4 * cycle + year + 1)) 1 rest 11 (by decide)
    (by rw [daysFromMonth_first]; exact hreckoning.rest_lt)
  simp only [reckoned, hyear]
  refine ⟨_, dif_pos ⟨by omega, hyears, hleast, by omega, hday, hdays⟩, ?_⟩
  rw [Date.dayNumber, Nat.add_assoc, hmonths]
  simpa [daysBeforeMonth] using hsum

theorem daysBeforeYear_add_lt {year rest : Nat} (hgreatest : year ≤ 9999)
    (hrest : rest < daysInYear year) : daysBeforeYear year + rest < dayCount := by
  have hlast : daysInYear 9999 = 365 := by decide
  have hdays : daysInYear year ≤ 366 := by
    unfold daysInYear
    split <;> omega
  simp only [daysBeforeYear, dayCount]
  by_cases hyear : year = 9999
  · subst hyear
    omega
  · omega

namespace Date

/-- The days of its year that come before a date. -/
theorem rest_lt (d : Date) :
    daysBeforeMonth (isLeapYear d.year) d.month + (d.day - 1) < daysInYear d.year := by
  have hmonths : ∀ leap : Bool, ∀ m < 13, 1 ≤ m →
      daysBeforeMonth leap m + daysInMonth leap m ≤ if leap then 366 else 365 := by
    decide
  have hmonth := hmonths (isLeapYear d.year) d.month (Nat.lt_succ_of_le d.month_le) d.month_pos
  have hday := d.day_le
  have hpos := d.day_pos
  unfold daysInYear
  omega

theorem dayNumber_lt (d : Date) : d.dayNumber < dayCount := by
  rw [dayNumber, Nat.add_assoc]
  exact daysBeforeYear_add_lt d.year_le d.rest_lt

/-- The days of the calendar, and no others, have dates. -/
theorem ofDayNumber?_isSome_iff {n : Nat} : (ofDayNumber? n).isSome ↔ n < dayCount := by
  constructor
  · intro h
    obtain ⟨d, hd⟩ := Option.isSome_iff_exists.mp h
    obtain ⟨era, century, cycle, year, rest, hreckoning, hyear⟩ := exists_reckoning n
    simp only [ofDayNumber?, hyear, of?] at hd
    split at hd
    · next hbounds =>
        rw [← hreckoning.daysBeforeYear_add]
        exact daysBeforeYear_add_lt hbounds.2.1 hreckoning.rest_lt
    · cases hd
  · intro hn
    obtain ⟨d, hd, -⟩ := of?_reckoned hn
    exact Option.isSome_iff_exists.mpr ⟨d, hd⟩

end Date

namespace Instant

theorem day_lt_dayCount (t : Instant) : t.micros / microsPerDay < dayCount :=
  Nat.div_lt_of_lt_mul (by rw [Nat.mul_comm]; exact t.bounded)

/-- Whether a moment falls on a day of the calendar in a time zone. -/
def HasLocalDate (zone : Zone) (t : Instant) : Prop :=
  0 ≤ t.micros + zone.micros ∧ t.micros + zone.micros < (dayCount * microsPerDay : Nat)

instance (zone : Zone) (t : Instant) : Decidable (t.HasLocalDate zone) :=
  inferInstanceAs (Decidable (_ ∧ _))

theorem localDate?_isSome_iff {zone : Zone} {t : Instant} :
    (t.localDate? zone).isSome ↔ t.HasLocalDate zone := by
  rw [localDate?, HasLocalDate]
  split
  · simp only [Option.isSome_none, Bool.false_eq_true, false_iff]
    omega
  · rw [Date.ofDayNumber?_isSome_iff, Nat.div_lt_iff_lt_mul (by decide)]
    omega

theorem hasLocalDate_utc (t : Instant) : t.HasLocalDate .utc := by
  have hbounded := t.bounded
  have hmicros : Zone.utc.micros = 0 := rfl
  rw [HasLocalDate, hmicros]
  omega

end Instant

end LinkShelf
