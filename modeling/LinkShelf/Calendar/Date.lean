/-!
Dates of the Gregorian calendar in the years 1 to 9999, the count of days from the first of them,
and steps of whole months.
-/

namespace LinkShelf

def isLeapYear (year : Nat) : Bool := year % 4 == 0 && (year % 100 != 0 || year % 400 == 0)

/-- The number of days in a month; `month` counts from one. -/
def daysInMonth (leap : Bool) (month : Nat) : Nat :=
  if month = 2 then (if leap then 29 else 28)
  else if month = 4 ∨ month = 6 ∨ month = 9 ∨ month = 11 then 30
  else 31

/-- A date of the Gregorian calendar. -/
structure Date where
  year : Nat
  month : Nat
  day : Nat
  year_pos : 1 ≤ year := by omega
  year_le : year ≤ 9999 := by omega
  month_pos : 1 ≤ month := by omega
  month_le : month ≤ 12 := by omega
  day_pos : 1 ≤ day := by omega
  day_le : day ≤ daysInMonth (isLeapYear year) month
  deriving DecidableEq, Repr

/-- The days of all years before a year. -/
def daysBeforeYear (year : Nat) : Nat :=
  let n := year - 1
  365 * n + n / 4 - n / 100 + n / 400

/-- The days of a year before a month. -/
def daysBeforeMonth (leap : Bool) : Nat → Nat
  | 0 => 0
  | 1 => 0
  | month + 1 => daysBeforeMonth leap month + daysInMonth leap month

/-- The month, counted from `month`, and the day in it of the day that comes `n` days after the
first of `month`; `fuel` months are looked at. -/
def monthAndDay (leap : Bool) (month n : Nat) : Nat → Nat × Nat
  | 0 => (month, n + 1)
  | fuel + 1 =>
    if n < daysInMonth leap month then (month, n + 1)
    else monthAndDay leap (month + 1) (n - daysInMonth leap month) fuel

/-- The year and the days before in it of the day that comes `n` days after the first of year 1. -/
def yearAndRest (n : Nat) : Nat × Nat :=
  let era := n / 146097
  let inEra := n % 146097
  let century := min 3 (inEra / 36524)
  let inCentury := inEra - 36524 * century
  let cycle := inCentury / 1461
  let inCycle := inCentury % 1461
  let year := min 3 (inCycle / 365)
  (400 * era + 100 * century + 4 * cycle + year + 1, inCycle - 365 * year)

/-- The weekday of a day by its number; Monday is zero. -/
def weekdayOf (dayNumber : Nat) : Nat := dayNumber % 7

/-- A number as a text of at least `width` digits. -/
def paddedNumber (width n : Nat) : String :=
  let digits := Nat.toDigits 10 n
  String.ofList (List.replicate (width - digits.length) '0' ++ digits)

/-- Why there is no date some months away. -/
inductive MonthFault where
  /-- The year is not one of the calendar. -/
  | year (n : Int)
  /-- The year is beyond all reckoning. -/
  | tooFar
  deriving DecidableEq, Repr

namespace Date

/-- The date with the given year, month and day, if there is one. -/
def of? (year month day : Nat) : Option Date :=
  if h : 1 ≤ year ∧ year ≤ 9999 ∧ 1 ≤ month ∧ month ≤ 12 ∧ 1 ≤ day ∧
      day ≤ daysInMonth (isLeapYear year) month then
    some ⟨year, month, day, h.1, h.2.1, h.2.2.1, h.2.2.2.1, h.2.2.2.2.1, h.2.2.2.2.2⟩
  else none

/-- The days between the first of year 1 and the date. -/
def dayNumber (d : Date) : Nat :=
  daysBeforeYear d.year + daysBeforeMonth (isLeapYear d.year) d.month + (d.day - 1)

/-- The date that comes `n` days after the first of year 1, if the calendar reaches that far. -/
def ofDayNumber? (n : Nat) : Option Date :=
  let (year, rest) := yearAndRest n
  let (month, day) := monthAndDay (isLeapYear year) 1 rest 11
  of? year month day

/-- The date some days later, or earlier when `days` is negative. -/
def addDays? (d : Date) (days : Int) : Option Date :=
  let n : Int := d.dayNumber + days
  if n < 0 then none else ofDayNumber? n.toNat

/-- Dates are ordered as the days they name. -/
instance : Ord Date := ⟨fun a b => compare a.dayNumber b.dayNumber⟩

/-- The least and the greatest year that a date is asked for. -/
def leastYear : Int := -2147483648
def greatestYear : Int := 2147483647

/-- The months of a date counted from the year zero. -/
def monthNumber (d : Date) : Int := 12 * d.year + (d.month - 1 : Nat)

/-- The same day some calendar months earlier, or the last day of that month when it is shorter. -/
def monthsBefore (d : Date) (months : Int) : Except MonthFault Date :=
  let total := d.monthNumber - months
  let year := total.fdiv 12
  let month := (total.fmod 12).toNat + 1
  if year < leastYear ∨ greatestYear < year then .error .tooFar
  else if year < 1 ∨ 9999 < year then .error (.year year)
  else
    let day := min d.day (daysInMonth (isLeapYear year.toNat) month)
    match of? year.toNat month day with
    | some e => .ok e
    | none => .error (.year year)

/-- The date as year, month and day with hyphens between. -/
def text (d : Date) : String :=
  paddedNumber 4 d.year ++ "-" ++ paddedNumber 2 d.month ++ "-" ++ paddedNumber 2 d.day

end Date

end LinkShelf
