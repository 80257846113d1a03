import LinkShelf.Calendar.Date

/-!
Moments in time to the microsecond, in the years 1 to 9999 of Universal Time, their texts, and the
date on which they fall in a time zone.
-/

namespace LinkShelf

def microsPerSecond : Nat := 1000000
def microsPerDay : Nat := 86400000000

/-- The days from the first of year 1 to the end of year 9999. -/
def dayCount : Nat := 3652059

/-- A moment in time, as microseconds since the start of year 1 in Universal Time. -/
structure Instant where
  micros : Nat
  bounded : micros < dayCount * microsPerDay
  deriving DecidableEq, Repr

/-- The hour, minute, second and microsecond at some microseconds after midnight. -/
structure TimeOfDay where
  hour : Nat
  minute : Nat
  second : Nat
  micro : Nat
  deriving DecidableEq, Repr

def TimeOfDay.ofMicros (n : Nat) : TimeOfDay :=
  let seconds := n / microsPerSecond
  ⟨seconds / 3600, seconds / 60 % 60, seconds % 60, n % microsPerSecond⟩

/-- The hour, minute and second, with colons between. -/
def TimeOfDay.clockText (c : TimeOfDay) : String :=
  paddedNumber 2 c.hour ++ ":" ++ paddedNumber 2 c.minute ++ ":" ++ paddedNumber 2 c.second

/-- A time zone without daylight saving: minutes east of Universal Time. -/
structure Zone where
  minutesEast : Int
  deriving DecidableEq, Repr

def Zone.utc : Zone := ⟨0⟩

def Zone.micros (z : Zone) : Int := z.minutesEast * 60 * microsPerSecond

namespace Instant

/-- The moment some microseconds after the start of year 1, if it is in range. -/
def ofMicros? (n : Int) : Option Instant :=
  if h : 0 ≤ n ∧ n.toNat < dayCount * microsPerDay then some ⟨n.toNat, h.2⟩ else none

/-- The number of the day that 1970 begins with. -/
def epochDay : Nat := 719162

def epochMicros : Int := epochDay * microsPerDay

/-- The year, month and day in Universal Time. -/
def yearMonthDay (t : Instant) : Nat × Nat × Nat :=
  let (year, rest) := yearAndRest (t.micros / microsPerDay)
  let (month, day) := monthAndDay (isLeapYear year) 1 rest 11
  (year, month, day)

def timeOfDay (t : Instant) : TimeOfDay := .ofMicros (t.micros % microsPerDay)

/-- The moment at the start of its second. -/
def wholeSecond (t : Instant) : Instant :=
  ⟨t.micros - t.micros % microsPerSecond, Nat.lt_of_le_of_lt (Nat.sub_le _ _) t.bounded⟩

/-- The moment some seconds later, if it is in range. -/
def addMicros? (t : Instant) (n : Int) : Option Instant := ofMicros? (t.micros + n)

/-- The date in a time zone, if it is one of the calendar. -/
def localDate? (t : Instant) (z : Zone) : Option Date :=
  let n : Int := t.micros + z.micros
  if n < 0 then none else Date.ofDayNumber? (n.toNat / microsPerDay)

/-- The microseconds since midnight in a time zone. -/
def localTimeMicros (t : Instant) (z : Zone) : Nat :=
  ((t.micros + z.micros).emod microsPerDay).toNat

instance : Ord Instant := ⟨fun a b => compare a.micros b.micros⟩

/-- The form in which records keep a moment: to the second, in Universal Time. The year has no
leading zeros. -/
def recordText (t : Instant) : String :=
  let (year, month, day) := t.yearMonthDay
  paddedNumber 0 year ++ "-" ++ paddedNumber 2 month ++ "-" ++ paddedNumber 2 day ++ "T" ++
    t.timeOfDay.clockText ++ "Z"

/-- The full form: the year padded to four digits, microseconds where there are some, and the
offset from Universal Time. -/
def fullText (t : Instant) : String :=
  let (year, month, day) := t.yearMonthDay
  let clock := t.timeOfDay
  paddedNumber 4 year ++ "-" ++ paddedNumber 2 month ++ "-" ++ paddedNumber 2 day ++ "T" ++
    clock.clockText ++
    (if clock.micro = 0 then "" else "." ++ paddedNumber 6 clock.micro) ++ "+00:00"

end Instant

end LinkShelf
