import LinkShelf.Calendar.Instant
import LinkShelf.Json.Display
import LinkShelf.Text.Blank
import LinkShelf.Text.Pieces

/-!
Reading timestamps: texts with a calendar or week date, an optional clock time and an optional
offset, and numbers of milliseconds since 1970.
-/

namespace LinkShelf

/-- Why a value is not read as a moment. -/
inductive TimestampFault where
  | malformed (text : String)
  | year (n : Int)
  | month
  | day
  | hour
  | minute
  | second
  /-- The offset, in microseconds, is a day or more. -/
  | offset (micros : Int)
  /-- The moment is outside the years 1 to 9999; `shown` is the value that named it. -/
  | outOfRange (shown : String)
  | notANumber
  deriving DecidableEq, Repr

/-- A signed span of time in days, seconds and microseconds, as messages show it. -/
def spanText (micros : Int) : String :=
  let days := micros.fdiv microsPerDay
  let rest := (micros.fmod microsPerDay).toNat
  let item (name : String) (n : Int) : List String :=
    if n = 0 then [] else [name ++ "=" ++ String.ofList (Number.integerText n)]
  let items := item "days" days ++ item "seconds" (rest / microsPerSecond : Nat) ++
    item "microseconds" (rest % microsPerSecond : Nat)
  "datetime.timedelta(" ++ (if items.isEmpty then "0" else String.intercalate ", " items) ++ ")"

def TimestampFault.message : TimestampFault → String
  | .malformed text => "Invalid isoformat string: " ++ quote text
  | .year n => "year " ++ String.ofList (Number.integerText n) ++ " is out of range"
  | .month => "month must be in 1..12"
  | .day => "day is out of range for month"
  | .hour => "hour must be in 0..23"
  | .minute => "minute must be in 0..59"
  | .second => "second must be in 0..59"
  | .offset micros =>
    "offset must be a timedelta strictly between -timedelta(hours=24) and timedelta(hours=24), " ++
      "not " ++ spanText micros ++ "."
  | .outOfRange shown => "Timestamp out of range: " ++ shown
  | .notANumber => "Invalid value NaN (not a number)"

namespace Timestamp

open Text

/-- The number that the first `count` characters write, if all of them are ASCII digits, and the
rest. -/
def takeDigits? (count : Nat) (cs : List Char) : Option (Nat × List Char) :=
  let digits := cs.take count
  if digits.length = count ∧ digits.all Char.isDigit then
    some (numberOf digits, cs.drop count)
  else none

/-- The characters after `c`, if the text starts with it. -/
def skip? (c : Char) : List Char → Option (List Char)
  | d :: rest => if d = c then some rest else none
  | [] => none

/-- How many characters the date takes at the start of a timestamp. -/
def dateLength? (cs : List Char) : Option Nat :=
  let length := cs.length
  let digitAt (i : Nat) : Bool := (cs[i]?).any Char.isDigit
  if length = 7 then some 7
  else if cs[4]? = some '-' then
    if cs[5]? = some 'W' then
      if length < 8 then none
      else if cs[8]? = some '-' then
        if length = 9 then none
        else if 10 < length ∧ digitAt 10 then some 8
        else some 10
      else some 8
    else some 10
  else if cs[4]? = some 'W' then
    let pos := 7 + ((cs.drop 7).takeWhile Char.isDigit).length
    if pos < 9 then some pos else if pos % 2 = 0 then some 7 else some 8
  else some 8

/-- The number of the Monday on or before the fourth of January, with which the weeks of a year
begin. -/
def firstMonday (year : Nat) : Int :=
  let first := daysBeforeYear year
  let weekday := weekdayOf first
  let monday : Int := (first : Int) - weekday
  if 3 < weekday then monday + 7 else monday

/-- Whether a year has 53 weeks: it begins on a Thursday, or on a Wednesday and has a leap day. -/
def hasWeek53 (year : Nat) : Bool :=
  let weekday := weekdayOf (daysBeforeYear year)
  weekday == 3 || (weekday == 2 && isLeapYear year)

/-- The year, month and day of a weekday in a week of a year. The weeks of year 0 lie in no
month. -/
def ofWeek? (year week weekday : Nat) : Option (Nat × Nat × Nat) :=
  if week = 0 ∨ 53 < week ∨ (week = 53 ∧ (year = 0 ∨ !hasWeek53 year)) then none
  else if weekday = 0 ∨ 7 < weekday then none
  else if year = 0 then some (1, 0, 1)
  else
    let n := firstMonday year + ((week - 1) * 7 + (weekday - 1) : Nat)
    let (y, rest) := yearAndRest n.toNat
    let (m, d) := monthAndDay (isLeapYear y) 1 rest 11
    some (y, m, d)

/-- The year, month and day that the first `length` characters write. -/
def readDate? (cs : List Char) (length : Nat) : Option (Nat × Nat × Nat) := do
  let (year, rest) ← takeDigits? 4 cs
  let hyphens := rest.head? = some '-'
  let rest := if hyphens then rest.drop 1 else rest
  match rest with
  | 'W' :: rest =>
    let (week, rest) ← takeDigits? 2 rest
    if cs.length - rest.length < length then
      let rest ← if hyphens then skip? '-' rest else some rest
      let (weekday, _) ← takeDigits? 1 rest
      ofWeek? year week weekday
    else ofWeek? year week 1
  | rest =>
    let (month, rest) ← takeDigits? 2 rest
    let rest ← if hyphens then skip? '-' rest else some rest
    let (day, _) ← takeDigits? 2 rest
    return (year, month, day)

/-- A clock time and whether something other than the end followed it. -/
structure Clock where
  hour : Nat
  minute : Nat
  second : Nat
  micro : Nat
  leftover : Bool
  deriving DecidableEq, Repr

/-- The microseconds that the digits of a fraction write, and whether something other than the end
follows them. Digits after the sixth do not count. -/
def readFraction? (cs : List Char) (boundary : Char) : Option (Nat × Bool) := do
  let count := min 6 cs.length
  let (n, rest) ← takeDigits? count cs
  let next := (rest.dropWhile Char.isDigit).headD boundary
  return (n * Nat.pow 10 (6 - count), next != '\x00')

/-- The clock time written in `cs`, which `boundary` follows. The hour may be followed by minutes
and seconds, with colons between them or without, and the last of them by a fraction. -/
def readClock? (cs : List Char) (boundary : Char) : Option Clock := do
  let (hour, rest) ← takeDigits? 2 cs
  match rest with
  | [] => return ⟨hour, 0, 0, 0, boundary != '\x00'⟩
  | [c] => return ⟨hour, 0, 0, 0, c != '\x00'⟩
  | c :: more =>
    let colons := c = ':'
    if c = '.' ∨ c = ',' then
      let (micro, leftover) ← readFraction? more boundary
      return ⟨hour, 0, 0, micro, leftover⟩
    let (minute, rest) ← takeDigits? 2 (if colons then more else rest)
    match rest with
    | [] => return ⟨hour, minute, 0, 0, boundary != '\x00'⟩
    | [c] => return ⟨hour, minute, 0, 0, c != '\x00'⟩
    | c :: more =>
      if colons ∧ c ≠ ':' ∧ c ≠ '.' ∧ c ≠ ',' then none
      if c = '.' ∨ c = ',' then
        let (micro, leftover) ← readFraction? more boundary
        return ⟨hour, minute, 0, micro, leftover⟩
      let (second, rest) ← takeDigits? 2 (if colons then more else rest)
      match rest with
      | [] => return ⟨hour, minute, second, 0, boundary != '\x00'⟩
      | [c] => return ⟨hour, minute, second, 0, c != '\x00'⟩
      | c :: more =>
        if colons ∧ c ≠ ':' ∧ c ≠ '.' ∧ c ≠ ',' then none
        let fraction := if colons ∨ c = '.' ∨ c = ',' then more else rest
        let (micro, leftover) ← readFraction? fraction boundary
        return ⟨hour, minute, second, micro, leftover⟩

/-- A clock time with the microseconds that it is ahead of Universal Time, if it says. -/
def readTime? (cs : List Char) : Option (Clock × Option Int) :=
  let (front, zone) := cs.span fun c => c ≠ '+' ∧ c ≠ '-'
  match zone with
  | [] => do
    let clock ← readClock? front '\x00'
    if clock.leftover then none else some (clock, none)
  | sign :: digits => do
    let clock ← readClock? front sign
    let ahead ← readClock? digits '\x00'
    if ahead.leftover then none
    let seconds := ahead.hour * 3600 + ahead.minute * 60 + ahead.second
    let micros : Int :=
      if seconds = 0 then 0 else (seconds * microsPerSecond + ahead.micro : Nat)
    return (clock, some (if sign = '-' then -micros else micros))

/-- The bytes that encode a text, as characters. Places in a timestamp are counted in bytes. -/
def bytesOf (cs : List Char) : List Char :=
  (String.ofList cs).toUTF8.toList.map fun b => Char.ofNat b.toNat

/-- How many bytes the character takes that begins with a byte. -/
def separatorLength (c : Char) : Nat :=
  if c.toNat < 128 then 1
  else if c.toNat / 16 = 14 then 3
  else if c.toNat / 16 = 15 then 4
  else 2

/-- The parts of the bytes of a timestamp: year, month and day, clock time and offset. Between date
and time stands one character. -/
def readParts? (cs : List Char) : Option ((Nat × Nat × Nat) × Clock × Option Int) := do
  let midnight : Clock := ⟨0, 0, 0, 0, false⟩
  let length ← dateLength? cs
  let date ← readDate? cs length
  match cs.drop length with
  | [] => return (date, midnight, none)
  | c :: time =>
    let (clock, offset) ← readTime? (time.drop (separatorLength c - 1))
    return (date, clock, offset)

/-- The moment that a text without white space at its ends writes; one without an offset is in
Universal Time. `shown` names the value in messages. -/
def readStripped (shown : String) (cs : List Char) : Except TimestampFault Instant :=
  match readParts? (bytesOf cs) with
  | none => .error (.malformed (String.ofList cs))
  | some ((year, month, day), clock, offset) =>
    let ahead := offset.getD 0
    if microsPerDay ≤ ahead.natAbs then .error (.offset ahead)
    else if year < 1 ∨ 9999 < year then .error (.year year)
    else if month < 1 ∨ 12 < month then .error .month
    else
      match Date.of? year month day with
      | none => .error .day
      | some date =>
        if 23 < clock.hour then .error .hour
        else if 59 < clock.minute then .error .minute
        else if 59 < clock.second then .error .second
        else
          let minutes := (date.dayNumber * 24 + clock.hour) * 60 + clock.minute
          let seconds := minutes * 60 + clock.second
          let micros : Int := (seconds * microsPerSecond + clock.micro : Nat)
          match Instant.ofMicros? (micros - ahead) with
          | some t => .ok t
          | none => .error (.outOfRange shown)

/-- The moment that a text writes; a `Z` stands for Universal Time. -/
def readText (s : String) : Except TimestampFault Instant :=
  readStripped (quote s) (replaceChar 'Z' "+00:00".toList (strip s.toList))

/-- The seconds since 1970 before and after which no moment is computed. -/
def secondsLimit : Int := 9223372036854775808

/-- The greatest year, counted from 1900, that is computed, and its end in seconds since 1970. -/
def yearLimit : Int := 2147483647

/-- The year that a day counted from the start of year 1 falls in, before year 1 as well. -/
def yearOfDay (day : Int) : Int :=
  let era := day.fdiv 146097
  let inEra := (day.fmod 146097).toNat
  400 * era + (yearAndRest inEra).1

/-- The moment some seconds and microseconds after 1970. -/
def ofSeconds (shown : String) (seconds micros : Int) : Except TimestampFault Instant :=
  if seconds < -secondsLimit ∨ secondsLimit ≤ seconds then .error (.outOfRange shown)
  else
    match Instant.ofMicros? (Instant.epochMicros + seconds * microsPerSecond + micros) with
    | some t => .ok t
    | none =>
      let year := yearOfDay (Instant.epochDay + seconds.fdiv 86400)
      if yearLimit < year - 1900 ∨ year - 1900 < -yearLimit - 1 then .error (.outOfRange shown)
      else .error (.year (year.bmod 4294967296))

/-- The moment some seconds after 1970; the fraction is rounded to microseconds, and a half goes to
the even one. -/
def ofFloatSeconds (shown : String) (x : Binary64) : Except TimestampFault Instant :=
  match x.value? with
  | some v =>
    let whole := v.truncate
    let fraction := v.add (.ofInt (-whole))
    let scaled : DyadicValue := ⟨fraction.num * microsPerSecond, fraction.scale⟩
    let micros := match scaled.toBinary64.value? with
      | some rounded => rounded.round
      | none => 0
    if micros < 0 then ofSeconds shown (whole - 1) (micros + microsPerSecond)
    else if micros < microsPerSecond then ofSeconds shown whole micros
    else ofSeconds shown (whole + 1) (micros - microsPerSecond)
  | none => if x = .notANumber then .error .notANumber else .error (.outOfRange shown)

/-- The moment some milliseconds after 1970. -/
def ofMillis (shown : String) (n : Int) : Except TimestampFault Instant :=
  ofFloatSeconds shown (.ofIntDiv n 1000)

/-- The moment that a number of milliseconds or a text names; no other value names one. -/
def read? : Json → Option (Except TimestampFault Instant)
  | .bool b => some (ofMillis (String.ofList (Json.shown (.bool b))) (if b then 1 else 0))
  | .int n => some (ofMillis (String.ofList (Number.integerText n)) n)
  | .float x => some (ofFloatSeconds (String.ofList x.shortestText) (x.divNat 1000))
  | .text s => some (readText s)
  | _ => none

end Timestamp

end LinkShelf
