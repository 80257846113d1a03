import LinkShelf.Calendar.Instant
import LinkShelf.Number.Integer
import LinkShelf.Text.Blank
import LinkShelf.Text.Case
import LinkShelf.Text.Quoted

/-!
Days as queries name them: by date (`2021/06/15`, `2021-06-15`), by a word or a number of units
(`today`, `3 days ago`), or by a duration back from now (`P1W`, `PT12H`).
-/

namespace LinkShelf

/-- Why a text is not read as a day. -/
inductive DayFault where
  | notADate (text : String)
  | notRelative (text : String)
  /-- The day lies before the calendar begins. -/
  | outOfRange (text : String)
  | year (n : Int)
  | tooManyDigits (count : Nat)
  /-- No reading of the text succeeded. -/
  | unreadable (text : String)
  /-- The day before the first day of the calendar was asked for. -/
  | noYesterday
  deriving DecidableEq, Repr

/-- The wording for a number with more digits than are accepted. -/
def tooManyDigitsMessage (count : Nat) : String :=
  "Exceeds the limit (4300 digits) for integer string conversion: value has " ++
    String.ofList (Number.integerText count) ++
    " digits; use sys.set_int_max_str_digits() to increase the limit"

def DayFault.message : DayFault → String
  | .notADate text => "Not a yyyy/mm/dd date: " ++ quote text
  | .notRelative text => "Not a relative date: " ++ quote text
  | .outOfRange text => "Date out of range: " ++ quote text
  | .year n => "year " ++ String.ofList (Number.integerText n) ++ " is out of range"
  | .tooManyDigits count => tooManyDigitsMessage count
  | .unreadable text => "unable to convert '" ++ text ++ "' to a date"
  | .noYesterday => "date value out of range"

/-- What the present is when a text is read: the date and the microseconds since midnight. -/
structure Present where
  today : Date
  timeMicros : Nat
  deriving DecidableEq, Repr

/-- The units of time that a number of them ago is counted in. -/
inductive DayUnit where
  | day
  | week
  | month
  | year
  deriving DecidableEq, Repr

/-- The amounts of a duration, each as the digits it is written with. -/
structure Duration where
  years : List Char
  months : List Char
  weeks : List Char
  days : List Char
  hours : List Char
  minutes : List Char
  seconds : List Char
  deriving DecidableEq, Repr

namespace DayText

open Text

/-- Two digits of any script, the first a digit from `low` to `high`, and the rest. -/
def twoDigits? (low high : Char) : List Char → Option (Nat × List Char)
  | a :: b :: rest =>
    if low ≤ a ∧ a ≤ high then (digitValue? b).map fun n => (10 * (a.toNat - '0'.toNat) + n, rest)
    else none
  | _ => none

/-- A digit from one to nine after the character `lead`, and the rest. -/
def afterLead? (lead : Char) : List Char → Option (Nat × List Char)
  | a :: b :: rest =>
    if a = lead ∧ '1' ≤ b ∧ b ≤ '9' then some (b.toNat - '0'.toNat, rest) else none
  | _ => none

/-- A digit from one to nine, and the rest. -/
def oneDigit? : List Char → Option (Nat × List Char)
  | a :: rest => if '1' ≤ a ∧ a ≤ '9' then some (a.toNat - '0'.toNat, rest) else none
  | [] => none

/-- A number between ten and a greatest one that starts with the digit `lead`, and the rest. -/
def upTo? (lead last : Char) : List Char → Option (Nat × List Char)
  | a :: b :: rest =>
    if a = lead ∧ '0' ≤ b ∧ b ≤ last then
      some (10 * (a.toNat - '0'.toNat) + (b.toNat - '0'.toNat), rest)
    else none
  | _ => none

/-- A month of one or two digits, and the rest. -/
def month? (cs : List Char) : Option (Nat × List Char) :=
  upTo? '1' '2' cs <|> afterLead? '0' cs <|> oneDigit? cs

/-- A day of one or two digits, or of one after a space, and the rest. -/
def day? (cs : List Char) : Option (Nat × List Char) :=
  upTo? '3' '1' cs <|> twoDigits? '1' '2' cs <|> afterLead? '0' cs <|> oneDigit? cs <|>
    afterLead? ' ' cs

/-- A year of four digits, and the rest. -/
def year? (cs : List Char) : Option (Nat × List Char) :=
  let digits := cs.take 4
  if digits.length = 4 ∧ digits.all isDigit then some (numberOf digits, cs.drop 4) else none

def skip? (c : Char) : List Char → Option (List Char)
  | d :: rest => if d = c then some rest else none
  | [] => none

/-- The month and what follows it when the separator comes next. A month of two digits is tried
first. -/
def monthThen? (separator : Char) (cs : List Char) : Option (Nat × List Char) := do
  let attempt (found : Option (Nat × List Char)) : Option (Nat × List Char) := do
    let (month, rest) ← found
    let rest ← skip? separator rest
    return (month, rest)
  attempt (upTo? '1' '2' cs) <|> attempt (afterLead? '0' cs) <|> attempt (oneDigit? cs)

/-- The date written as year, month and day with a separator between. -/
def separated? (separator : Char) (cs : List Char) : Option Date := do
  let (year, rest) ← year? cs
  let rest ← skip? separator rest
  let (month, rest) ← monthThen? separator rest
  let (day, rest) ← day? rest
  if rest.isEmpty then Date.of? year month day else none

/-- The day that a date names. -/
def readAbsolute (s : String) : Except DayFault Date :=
  let cs := strip s.toList
  match separated? '/' cs <|> separated? '-' cs with
  | some d => .ok d
  | none => .error (.notADate (String.ofList cs))

/-- The text after a word, if the text starts with it. -/
def afterWord? (word : String) (cs : List Char) : Option (List Char) :=
  if word.toList.isPrefixOf cs then some (cs.drop word.toList.length) else none

/-- The amount before a unit, as digits, and the rest: a number or an article. -/
def amount? (cs : List Char) : Option (List Char × List Char) :=
  match cs.span isDigit with
  | ([], _) =>
    let rest := afterWord? "an" cs <|> afterWord? "a" cs <|> afterWord? "one" cs
    rest.map fun rest => (['1'], rest)
  | parts => some parts

/-- The unit at the start of a text, and the rest. -/
def unit? (cs : List Char) : Option (DayUnit × List Char) :=
  let attempt (word : String) (u : DayUnit) := (afterWord? word cs).map fun rest => (u, rest)
  attempt "day" .day <|> attempt "week" .week <|> attempt "month" .month <|> attempt "year" .year

/-- The amount and the unit of a text such as `3 days ago`. -/
def ago? (cs : List Char) : Option (List Char × DayUnit) := do
  let (amount, rest) ← amount? cs
  let (unit, rest) ← unit? (rest.dropWhile isBlank)
  let rest := (skip? 's' rest).getD rest
  let ago := rest.dropWhile isBlank
  if ago = "ago".toList ∧ ago.length < rest.length then some (amount, unit) else none

/-- The digits before a unit letter and the text after it; without them the text stays. -/
def component (letter : Char) (cs : List Char) : List Char × List Char :=
  match cs.span isDigit with
  | ([], _) => ([], cs)
  | (digits, rest) =>
    match skip? letter rest with
    | some rest => (digits, rest)
    | none => ([], cs)

/-- A letter of a duration in upper case. The long s counts as an S. -/
def durationLetter (c : Char) : Char := if c.toNat = 0x17F then 'S' else c.toUpper

/-- The duration that a text writes; one without any part is none. -/
def duration? (cs : List Char) : Option Duration :=
  match cs.map durationLetter with
  | 'P' :: rest =>
    let (years, rest) := component 'Y' rest
    let (months, rest) := component 'M' rest
    let (weeks, rest) := component 'W' rest
    let (days, rest) := component 'D' rest
    match rest with
    | [] =>
      if cs.length = 1 then none else some ⟨years, months, weeks, days, [], [], []⟩
    | 'T' :: rest =>
      let (hours, rest) := component 'H' rest
      let (minutes, rest) := component 'M' rest
      let (seconds, rest) := component 'S' rest
      if rest.isEmpty ∧ cs.length ≠ 2 then
        some ⟨years, months, weeks, days, hours, minutes, seconds⟩
      else none
    | _ => none
  | _ => none

/-- The number that digits write, if there are not too many of them. -/
def number (digits : List Char) : Except DayFault Nat :=
  if Number.maxDigits < digits.length then .error (.tooManyDigits digits.length)
  else .ok (numberOf digits)

/-- The day some calendar months before a date. -/
def monthsBefore (text : String) (d : Date) (months : Nat) : Except DayFault Date :=
  match d.monthsBefore months with
  | .ok e => .ok e
  | .error (.year n) => .error (.year n)
  | .error .tooFar => .error (.outOfRange text)

/-- The day some days before a date. -/
def daysBefore (text : String) (d : Date) (days : Nat) : Except DayFault Date :=
  match d.addDays? (-(days : Int)) with
  | some e => .ok e
  | none => .error (.outOfRange text)

/-- The day some units before a date. -/
def unitsBefore (text : String) (today : Date) (n : Nat) : DayUnit → Except DayFault Date
  | .day => daysBefore text today n
  | .week => daysBefore text today (7 * n)
  | .month => monthsBefore text today n
  | .year => monthsBefore text today (12 * n)

/-- The day a duration back from the present. Months are taken off the date first; the rest is
taken off the moment, so that hours count from the time of day. -/
def durationBefore (text : String) (present : Present) (p : Duration) : Except DayFault Date := do
  let years ← number p.years
  let months ← number p.months
  let weeks ← number p.weeks
  let days ← number p.days
  let hours ← number p.hours
  let minutes ← number p.minutes
  let seconds ← number p.seconds
  let start ← monthsBefore text present.today (12 * years + months)
  let moment : Int := start.dayNumber * microsPerDay + present.timeMicros
  let span : Nat :=
    (7 * weeks + days) * microsPerDay + (hours * 3600 + minutes * 60 + seconds) * microsPerSecond
  if moment < span then throw (.outOfRange text)
  match Date.ofDayNumber? ((moment - span).toNat / microsPerDay) with
  | some d => return d
  | none => throw (.outOfRange text)

/-- The day that a text names from the present. -/
def readRelative (present : Present) (s : String) : Except DayFault Date :=
  let cs := lower (strip s.toList)
  let text := String.ofList cs
  if cs = "today".toList then .ok present.today
  else if cs = "yesterday".toList then
    match present.today.addDays? (-1) with
    | some d => .ok d
    | none => .error .noYesterday
  else
    match ago? cs with
    | some (amount, unit) => do unitsBefore text present.today (← number amount) unit
    | none =>
      match duration? cs with
      | some p => durationBefore text present p
      | none => .error (.notRelative text)

/-- The day that a text names, as a date or from the present. -/
def read (present : Present) (s : String) : Except DayFault Date :=
  match readAbsolute s with
  | .ok d => .ok d
  | .error _ =>
    match readRelative present s with
    | .ok d => .ok d
    | .error .noYesterday => .error .noYesterday
    | .error _ => .error (.unreadable s)

end DayText

end LinkShelf
