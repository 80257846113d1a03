import LinkShelf.Failure
import LinkShelf.Proofs.Calendar.Months
import LinkShelf.Proofs.Outcome
import LinkShelf.Proofs.Text.Blank
import LinkShelf.Proofs.Text.Digits
import LinkShelf.Proofs.Text.Pieces

/-!
Days counted back from the present, in words (`3 days ago`) and as a duration (`P3D`). Both give the
day so many units before today (`readRelative_ago`, `readRelative_duration`), though the second
takes a span of time off a moment. Main statement: the two agree, where they give a day and where
they are refused (`readRelative_notations`).
-/

namespace LinkShelf

namespace DayText

open Text

variable {present : Present} {text : String} {d e : Date} {k : Nat}

/-! ## Days before a day -/

theorem daysBefore_of_lt (hk : d.dayNumber < k) :
    daysBefore text d k = .error (.outOfRange text) := by
  rw [daysBefore, Date.addDays?, if_pos (by omega)]

theorem daysBefore_of_le (text : String) (hk : k ≤ d.dayNumber) :
    ∃ e, daysBefore text d k = .ok e ∧ e.dayNumber + k = d.dayNumber := by
  have hnumber : ((d.dayNumber : Int) + -(k : Int)).toNat = d.dayNumber - k := by omega
  have hbefore : d.dayNumber - k < dayCount := Nat.lt_of_le_of_lt (Nat.sub_le _ _) d.dayNumber_lt
  obtain ⟨e, he⟩ := Option.isSome_iff_exists.mp (Date.ofDayNumber?_isSome_iff.mpr hbefore)
  have hefound := Date.ofDayNumber?_eq_some_iff.mp he
  refine ⟨e, ?_, by omega⟩
  rw [daysBefore, Date.addDays?, if_neg (by omega), hnumber, he]

theorem daysBefore_eq_ok_iff : daysBefore text d k = .ok e ↔ e.dayNumber + k = d.dayNumber := by
  rcases Nat.lt_or_ge d.dayNumber k with hk | hk
  · rw [daysBefore_of_lt hk]
    simp only [reduceCtorEq, false_iff]
    omega
  · obtain ⟨f, hf, hnumber⟩ := daysBefore_of_le text hk
    rw [hf, Except.ok.injEq]
    constructor
    · rintro rfl
      exact hnumber
    · intro he
      apply Date.dayNumber_injective
      omega

theorem daysBefore_zero : daysBefore text d 0 = .ok d := daysBefore_eq_ok_iff.mpr rfl

theorem monthsBefore_zero : monthsBefore text d 0 = .ok d := by
  have hzero : d.monthsBefore (0 : Nat) = .ok d := d.monthsBefore_zero
  rw [monthsBefore, hzero]

/-! ## Durations -/

/-- The amount of one unit. -/
def unitDuration (digits : List Char) : DayUnit → Duration
  | .day => ⟨[], [], [], digits, [], [], []⟩
  | .week => ⟨[], [], digits, [], [], [], []⟩
  | .month => ⟨[], digits, [], [], [], [], []⟩
  | .year => ⟨digits, [], [], [], [], [], []⟩

theorem number_nil : number [] = .ok 0 := rfl

/-- Whole days taken off a moment leave the time of day as it is. -/
theorem takeOff_days (day span : Nat) {time : Nat} (htime : time < microsPerDay) :
    ((day : Int) * microsPerDay + time < (span * microsPerDay : Nat) ↔ day < span) ∧
      ((day : Int) * microsPerDay + time - (span * microsPerDay : Nat)).toNat / microsPerDay =
        day - span := by
  rw [microsPerDay] at *
  omega

/-- A duration without a part shorter than a day takes whole days off, whatever the time is. -/
theorem durationBefore_of_days (htime : present.timeMicros < microsPerDay)
    {years months weeks days : List Char} {y m w n : Nat} (hyears : number years = .ok y)
    (hmonths : number months = .ok m) (hweeks : number weeks = .ok w)
    (hdays : number days = .ok n) :
    durationBefore text present ⟨years, months, weeks, days, [], [], []⟩ =
      monthsBefore text present.today (12 * y + m) >>= fun start =>
        daysBefore text start (7 * w + n) := by
  unfold durationBefore
  rw [hyears, hmonths, hweeks, hdays, number_nil]
  simp only [ok_bind]
  congr 1
  funext start
  have hnotime : (0 * 3600 + 0 * 60 + 0) * microsPerSecond = 0 := rfl
  obtain ⟨hbefore, hday⟩ := takeOff_days start.dayNumber (7 * w + n) htime
  rw [hnotime, Nat.add_zero, hday]
  by_cases hspan : start.dayNumber < 7 * w + n
  · rw [daysBefore_of_lt hspan, if_pos (hbefore.mpr hspan)]
    rfl
  · obtain ⟨e, he, hnumber⟩ := daysBefore_of_le text (Nat.le_of_not_lt hspan)
    have hfound : Date.ofDayNumber? (start.dayNumber - (7 * w + n)) = some e :=
      Date.ofDayNumber?_eq_some_iff.mpr (by omega)
    rw [if_neg fun hlt => hspan (hbefore.mp hlt), hfound, he]
    rfl

/-- A duration of years and months is so many months. -/
theorem durationBefore_of_months (htime : present.timeMicros < microsPerDay)
    {years months : List Char} {y m : Nat} (hyears : number years = .ok y)
    (hmonths : number months = .ok m) :
    durationBefore text present ⟨years, months, [], [], [], [], []⟩ =
      monthsBefore text present.today (12 * y + m) := by
  rw [durationBefore_of_days htime hyears hmonths rfl rfl]
  cases monthsBefore text present.today (12 * y + m) with
  | error fault => rfl
  | ok start => exact daysBefore_zero

end DayText

/-- The word for a unit. -/
def DayUnit.word : DayUnit → String
  | .day => "day"
  | .week => "week"
  | .month => "month"
  | .year => "year"

/-- The letter for a unit in a duration. -/
def DayUnit.letter : DayUnit → Char
  | .day => 'D'
  | .week => 'W'
  | .month => 'M'
  | .year => 'Y'

/-- The days of a unit, if it always has the same number of them. -/
def DayUnit.days? : DayUnit → Option Nat
  | .day => some 1
  | .week => some 7
  | .month | .year => none

namespace DayText

open Text

variable {present : Present} {text : String} {d e : Date} {k : Nat}

theorem unitsBefore_of_days? {unit : DayUnit} {days : Nat} (hdays : unit.days? = some days) :
    unitsBefore text d k unit = daysBefore text d (days * k) := by
  cases unit with
  | day =>
      obtain rfl := Option.some.inj hdays
      rw [Nat.one_mul]
      rfl
  | week =>
      obtain rfl := Option.some.inj hdays
      rfl
  | month => cases hdays
  | year => cases hdays

/-! ## The two notations -/

/-- Whether a text is a row of digits that is short enough to be read. -/
structure IsNumeral (n : String) : Prop where
  ne_nil : n.toList ≠ []
  isDigit : ∀ c ∈ n.toList, isDigit c = true
  length_le : n.toList.length ≤ Number.maxDigits

theorem IsNumeral.number_eq {n : String} (hn : IsNumeral n) :
    number n.toList = .ok (numberOf n.toList) :=
  if_neg (Nat.not_lt.mpr hn.length_le)

theorem IsNumeral.exists_cons {n : String} (hn : IsNumeral n) :
    ∃ c cs, n.toList = c :: cs ∧ Text.isDigit c = true := by
  obtain ⟨c, cs, hcons⟩ := List.exists_cons_of_ne_nil hn.ne_nil
  exact ⟨c, cs, hcons, hn.isDigit c (by simp [hcons])⟩

theorem amount?_digits {digits rest : List Char} (hne : digits ≠ [])
    (hdigits : ∀ c ∈ digits, Text.isDigit c = true)
    (hrest : ∀ c, rest.head? = some c → Text.isDigit c = false) :
    amount? (digits ++ rest) = some (digits, rest) := by
  rw [amount?, span_append hdigits hrest]
  split
  · next heq => exact absurd (Prod.mk.inj heq).1 hne
  · rfl

section

variable {digits rest : List Char} {letter c : Char}

theorem component_digits (hne : digits ≠ []) (hdigits : ∀ c ∈ digits, Text.isDigit c = true)
    (hc : Text.isDigit c = false) : component letter (digits ++ c :: rest) =
      if c = letter then (digits, rest) else ([], digits ++ c :: rest) := by
  rw [component, span_append hdigits (by simpa using hc)]
  split
  · next heq => exact absurd (Prod.mk.inj heq).1 hne
  · next heq =>
      obtain ⟨rfl, rfl⟩ := Prod.mk.inj heq
      rw [skip?]
      by_cases hletter : c = letter
      · rw [if_pos hletter, if_pos hletter]
      · rw [if_neg hletter, if_neg hletter]

theorem component_found (hne : digits ≠ []) (hdigits : ∀ c ∈ digits, Text.isDigit c = true)
    (hc : Text.isDigit c = false) : component c (digits ++ c :: rest) = (digits, rest) := by
  rw [component_digits hne hdigits hc, if_pos rfl]

theorem component_missing (hne : digits ≠ []) (hdigits : ∀ c ∈ digits, Text.isDigit c = true)
    (hc : Text.isDigit c = false) (hletter : c ≠ letter) :
    component letter (digits ++ c :: rest) = ([], digits ++ c :: rest) := by
  rw [component_digits hne hdigits hc, if_neg hletter]

theorem component_nil : component letter [] = ([], []) := rfl

end

theorem durationLetter_of_isDigit {c : Char} (hc : Text.isDigit c = true) :
    durationLetter c = c := by
  have hrange := isDigit_range hc
  have hupper : c.toUpper = c := by
    refine dif_neg fun hletter => ?_
    simp only [UInt32.le_iff_toNat_le] at hletter
    have hlow : 97 ≤ c.toNat := hletter.1
    have hhigh : c.toNat ≤ 122 := hletter.2
    omega
  rw [durationLetter, if_neg (by omega), hupper]

/-- The text of a number of units ago, from its digits. -/
def agoText (digits : List Char) (unit : DayUnit) : List Char :=
  digits ++ ' ' :: (unit.word.toList ++ "s ago".toList)

section

variable {digits : List Char} {unit : DayUnit}

theorem strip_agoText (hne : digits ≠ []) (hdigits : ∀ c ∈ digits, Text.isDigit c = true) :
    strip (agoText digits unit) = agoText digits unit := by
  apply strip_eq_self
  · obtain ⟨c, cs, rfl⟩ := List.exists_cons_of_ne_nil hne
    rintro d ⟨⟩
    exact isBlank_of_isDigit (hdigits c (by simp))
  · rw [agoText, List.getLast?_append]
    cases unit <;> (rintro c ⟨⟩; rfl)

theorem lower_agoText (hdigits : ∀ c ∈ digits, Text.isDigit c = true) :
    lower (agoText digits unit) = agoText digits unit := by
  rw [lower, agoText, lowerAfter_append fun c hc => isLower_of_isDigit (hdigits c hc),
    ← List.append_nil (' ' :: (unit.word.toList ++ "s ago".toList)), lowerAfter_ascii]
  · cases unit <;> rfl
  · cases unit <;> decide

theorem ago?_agoText (hne : digits ≠ []) (hdigits : ∀ c ∈ digits, Text.isDigit c = true) :
    ago? (agoText digits unit) = some (digits, unit) := by
  rw [ago?, agoText, amount?_digits hne hdigits (by rintro c ⟨⟩; rfl)]
  cases unit <;> rfl

end

/-- A number of units ago in words. -/
theorem readRelative_ago (present : Present) {n : String} (hn : IsNumeral n) (unit : DayUnit) :
    ∃ text, readRelative present (n ++ " " ++ unit.word ++ "s ago") =
      unitsBefore text present.today (numberOf n.toList) unit := by
  obtain ⟨c, cs, hcons, hc⟩ := hn.exists_cons
  have hlist : (n ++ " " ++ unit.word ++ "s ago").toList = agoText n.toList unit := by
    simp [agoText]
  have hhead : (agoText n.toList unit).head? = some c := by simp [agoText, hcons]
  have hne : ∀ word : List Char, word.head?.all (fun d => !Text.isDigit d) = true →
      agoText n.toList unit ≠ word := by
    rintro word hword rfl
    simp [hhead, hc] at hword
  refine ⟨String.ofList (agoText n.toList unit), ?_⟩
  rw [readRelative, hlist, strip_agoText hn.ne_nil hn.isDigit, lower_agoText hn.isDigit,
    if_neg (hne _ rfl), if_neg (hne _ rfl), ago?_agoText hn.ne_nil hn.isDigit]
  change (number n.toList >>= fun k => unitsBefore _ present.today k unit) = _
  rw [hn.number_eq, ok_bind]

/-! ## Durations as texts -/

/-- The parts of a duration, each a row of digits and the letter for its unit. -/
def partsText (parts : List (List Char × Char)) : List Char :=
  parts.flatMap fun part => part.1 ++ [part.2]

/-- Whether a part has digits only before its letter, and a letter that stands for a unit. -/
structure IsPart (part : List Char × Char) : Prop where
  ne_nil : part.1 ≠ []
  isDigit : ∀ c ∈ part.1, Text.isDigit c = true
  letter : part.2 ∈ ['Y', 'M', 'W', 'D']

section

variable {parts : List (List Char × Char)}

theorem lowerAfter_partsText (hparts : ∀ part ∈ parts, IsPart part) (before : List Char) :
    lowerAfter before (partsText parts) =
      partsText (parts.map fun part => (part.1, part.2.toLower)) := by
  induction parts generalizing before with
  | nil => rfl
  | cons part parts ih =>
      obtain ⟨-, hdigits, hletter⟩ := hparts part (by simp)
      have hascii : ∀ letter ∈ ['Y', 'M', 'W', 'D'], letter.toNat < 128 := by decide
      have hrest := fun before => ih (fun p hp => hparts p (by simp [hp])) before
      simp only [partsText, List.map_cons, List.flatMap_cons, List.append_assoc] at hrest ⊢
      rw [lowerAfter_append fun c hc => isLower_of_isDigit (hdigits c hc), lowerAfter_ascii, hrest]
      · rfl
      · simpa using hascii _ hletter

theorem map_durationLetter_partsText (hparts : ∀ part ∈ parts, IsPart part) :
    (partsText (parts.map fun part => (part.1, part.2.toLower))).map durationLetter =
      partsText parts := by
  induction parts with
  | nil => rfl
  | cons part parts ih =>
      obtain ⟨-, hdigits, hletter⟩ := hparts part (by simp)
      have hletters : ∀ letter ∈ ['Y', 'M', 'W', 'D'], durationLetter letter.toLower = letter := by
        decide
      have hrest := ih fun p hp => hparts p (by simp [hp])
      have hsame : part.1.map durationLetter = part.1 :=
        (List.map_congr_left fun c hc => durationLetter_of_isDigit (hdigits c hc)).trans
          part.1.map_id
      simp only [partsText, List.map_cons, List.flatMap_cons, List.map_append] at hrest ⊢
      rw [hsame, hrest]
      simp [hletters _ hletter]

theorem strip_partsText (hparts : ∀ part ∈ parts, IsPart part) :
    strip ('P' :: partsText parts) = 'P' :: partsText parts := by
  have hletters : ∀ letter ∈ ['Y', 'M', 'W', 'D'], isBlank letter = false := by decide
  apply strip_of_forall
  rw [List.forall_mem_cons]
  refine ⟨rfl, ?_⟩
  intro c hc
  obtain ⟨part, hpart, hc⟩ := List.mem_flatMap.mp hc
  obtain ⟨-, hdigits, hletter⟩ := hparts part hpart
  rcases List.mem_append.mp hc with hc | hc
  · exact isBlank_of_isDigit (hdigits c hc)
  · rw [List.mem_singleton.mp hc]
    exact hletters _ hletter

/-- A text of parts is read as the duration that they make. -/
theorem readRelative_partsText (present : Present) (hparts : ∀ part ∈ parts, IsPart part)
    {s : String} {p : Duration} (hs : s.toList = 'P' :: partsText parts)
    (hp : duration? ('p' :: partsText (parts.map fun part => (part.1, part.2.toLower))) = some p) :
    ∃ text, readRelative present s = durationBefore text present p := by
  have hlower : lower ('P' :: partsText parts) =
      'p' :: partsText (parts.map fun part => (part.1, part.2.toLower)) := by
    have hstart : lowerAfter [] (['P'] ++ partsText parts) =
        ['P'].map Char.toLower ++ lowerAfter (['P'].reverse ++ []) (partsText parts) :=
      lowerAfter_ascii (by decide)
    rw [lowerAfter_partsText hparts] at hstart
    exact hstart
  -- From here on only the first letter matters: it rules out the other readings.
  generalize partsText (parts.map fun part => (part.1, part.2.toLower)) = lowered at hlower hp
  have hago : ago? ('p' :: lowered) = none := rfl
  refine ⟨String.ofList ('p' :: lowered), ?_⟩
  rw [readRelative, hs, strip_partsText hparts, hlower, if_neg nofun, if_neg nofun, hago]
  dsimp only
  rw [hp]

end

theorem duration?_unit {digits : List Char} {unit : DayUnit}
    (hpart : IsPart (digits, unit.letter)) :
    duration? ('p' ::
        partsText ([(digits, unit.letter)].map fun part => (part.1, part.2.toLower))) =
      some (unitDuration digits unit) := by
  have hparts : ∀ part ∈ [(digits, unit.letter)], IsPart part := by simpa using hpart
  have hp : durationLetter 'p' = 'P' := rfl
  obtain ⟨hne, hdigits, -⟩ := hpart
  unfold duration?
  rw [List.map_cons, map_durationLetter_partsText hparts, hp]
  cases unit <;>
  · simp (disch := first | decide | assumption) only [partsText, List.flatMap_singleton,
      DayUnit.letter, component_found, component_missing, component_nil]
    exact if_neg (by simp)

theorem duration?_yearsAndMonths {years months : List Char} (hyears : IsPart (years, 'Y'))
    (hmonths : IsPart (months, 'M')) :
    duration? ('p' :: partsText ([(years, 'Y'), (months, 'M')].map
      fun part => (part.1, part.2.toLower))) = some ⟨years, months, [], [], [], [], []⟩ := by
  have hparts : ∀ part ∈ [(years, 'Y'), (months, 'M')], IsPart part := by
    simpa using ⟨hyears, hmonths⟩
  have hp : durationLetter 'p' = 'P' := rfl
  obtain ⟨hyne, hydigits, -⟩ := hyears
  obtain ⟨hmne, hmdigits, -⟩ := hmonths
  unfold duration?
  rw [List.map_cons, map_durationLetter_partsText hparts, hp]
  simp (disch := first | decide | assumption) only [partsText, List.flatMap_cons,
    List.flatMap_nil, List.append_assoc, List.singleton_append, List.append_nil, component_found]
  exact if_neg (by simp)

/-! ## Agreement -/

theorem IsNumeral.isPart {n : String} (hn : IsNumeral n) {letter : Char}
    (hletter : letter ∈ ['Y', 'M', 'W', 'D']) : IsPart (n.toList, letter) :=
  ⟨hn.ne_nil, hn.isDigit, hletter⟩

/-- A duration of one unit gives the day so many units before today. -/
theorem readRelative_duration (htime : present.timeMicros < microsPerDay) {n : String}
    (hn : IsNumeral n) (unit : DayUnit) :
    ∃ text, readRelative present ("P" ++ n ++ String.singleton unit.letter) =
      unitsBefore text present.today (numberOf n.toList) unit := by
  have hpart : IsPart (n.toList, unit.letter) := hn.isPart (by cases unit <;> decide)
  obtain ⟨text, hread⟩ := readRelative_partsText present
    (s := "P" ++ n ++ String.singleton unit.letter) (by simpa using hpart) (by simp [partsText])
    (duration?_unit hpart)
  refine ⟨text, hread.trans ?_⟩
  cases unit with
  | day =>
      rw [unitDuration, durationBefore_of_days htime number_nil number_nil number_nil hn.number_eq,
        monthsBefore_zero, ok_bind, Nat.zero_add]
      rfl
  | week =>
      rw [unitDuration, durationBefore_of_days htime number_nil number_nil hn.number_eq number_nil,
        monthsBefore_zero, ok_bind]
      rfl
  | month =>
      rw [unitDuration, durationBefore_of_months htime number_nil hn.number_eq, Nat.zero_add]
      rfl
  | year =>
      rw [unitDuration, durationBefore_of_months htime hn.number_eq number_nil]
      rfl

/-- A duration of years and months gives the day so many months before today. -/
theorem readRelative_yearsAndMonths (htime : present.timeMicros < microsPerDay) {n m : String}
    (hn : IsNumeral n) (hm : IsNumeral m) :
    ∃ text, readRelative present ("P" ++ n ++ "Y" ++ m ++ "M") =
      monthsBefore text present.today (12 * numberOf n.toList + numberOf m.toList) := by
  have hyears : IsPart (n.toList, 'Y') := hn.isPart (by decide)
  have hmonths : IsPart (m.toList, 'M') := hm.isPart (by decide)
  obtain ⟨text, hread⟩ := readRelative_partsText present
    (s := "P" ++ n ++ "Y" ++ m ++ "M") (by simpa using ⟨hyears, hmonths⟩) (by simp [partsText])
    (duration?_yearsAndMonths hyears hmonths)
  exact ⟨text, hread.trans (durationBefore_of_months htime hn.number_eq hm.number_eq)⟩

/-- Whether a reading is refused for the text that was given. -/
def IsRefused (result : Except DayFault Date) : Prop :=
  ∃ fault, result = .error fault ∧ (Failure.day fault).name = "ValueError"

/-- Whether two readings give the same day, or are both refused. -/
def Agree (x y : Except DayFault Date) : Prop :=
  (∃ d, x = .ok d ∧ y = .ok d) ∨ (IsRefused x ∧ IsRefused y)

theorem isRefused_error {fault : DayFault} (hfault : fault ≠ .noYesterday) :
    IsRefused (.error fault) := by
  refine ⟨fault, rfl, ?_⟩
  cases fault with
  | noYesterday => exact absurd rfl hfault
  | _ => rfl

theorem not_isRefused_ok : ¬IsRefused (.ok d) := by
  rintro ⟨fault, hfault, -⟩
  cases hfault

theorem isRefused_daysBefore : IsRefused (daysBefore text d k) ↔ d.dayNumber < k := by
  rcases Nat.lt_or_ge d.dayNumber k with hk | hk
  · rw [daysBefore_of_lt hk]
    exact iff_of_true (isRefused_error nofun) hk
  · obtain ⟨e, he, -⟩ := daysBefore_of_le text hk
    rw [he]
    exact iff_of_false not_isRefused_ok (Nat.not_lt.mpr hk)

theorem monthsBefore_eq_ok_iff : monthsBefore text d k = .ok e ↔ d.monthsBefore k = .ok e := by
  rw [monthsBefore]
  split
  · next h => rw [h]; simp
  · next h => rw [h]; simp
  · next h => rw [h]; simp

theorem isRefused_monthsBefore :
    IsRefused (monthsBefore text d k) ↔ ∃ fault, d.monthsBefore k = .error fault := by
  rw [monthsBefore]
  split
  · next h => rw [h]; exact iff_of_false not_isRefused_ok nofun
  · next h => exact iff_of_true (isRefused_error nofun) ⟨_, h⟩
  · next h => exact iff_of_true (isRefused_error nofun) ⟨_, h⟩

/-- The text of a fault apart, the days before a day do not depend on the text. -/
theorem agree_unitsBefore (text other : String) (d : Date) (k : Nat) (unit : DayUnit) :
    Agree (unitsBefore text d k unit) (unitsBefore other d k unit) := by
  have hdays : ∀ k, Agree (daysBefore text d k) (daysBefore other d k) := by
    intro k
    rcases Nat.lt_or_ge d.dayNumber k with hk | hk
    · exact .inr ⟨isRefused_daysBefore.mpr hk, isRefused_daysBefore.mpr hk⟩
    · obtain ⟨e, he, hnumber⟩ := daysBefore_of_le text hk
      exact .inl ⟨e, he, daysBefore_eq_ok_iff.mpr hnumber⟩
  have hmonths : ∀ k, Agree (monthsBefore text d k) (monthsBefore other d k) := by
    intro k
    cases hresult : d.monthsBefore k with
    | ok e =>
        exact .inl ⟨e, monthsBefore_eq_ok_iff.mpr hresult, monthsBefore_eq_ok_iff.mpr hresult⟩
    | error fault =>
        have hrefused : ∀ text, IsRefused (monthsBefore text d k) := fun text =>
          isRefused_monthsBefore.mpr ⟨fault, hresult⟩
        exact .inr ⟨hrefused text, hrefused other⟩
  cases unit with
  | day => exact hdays k
  | week => exact hdays (7 * k)
  | month => exact hmonths k
  | year => exact hmonths (12 * k)

/-- A number of units ago in words and as a duration: the same day, or refused both times. Days and
weeks count the days of the calendar, and are refused exactly where it has not begun; years and
months together count months, and are refused exactly where there is no such month. -/
theorem readRelative_notations (htime : present.timeMicros < microsPerDay) {n m : String}
    (hn : IsNumeral n) (hm : IsNumeral m) :
    (∀ unit : DayUnit, Agree (readRelative present (n ++ " " ++ unit.word ++ "s ago"))
      (readRelative present ("P" ++ n ++ String.singleton unit.letter))) ∧
    (∀ (unit : DayUnit) (days : Nat), unit.days? = some days →
      (∀ d, readRelative present (n ++ " " ++ unit.word ++ "s ago") = .ok d ↔
        d.dayNumber + days * numberOf n.toList = present.today.dayNumber) ∧
      (IsRefused (readRelative present (n ++ " " ++ unit.word ++ "s ago")) ↔
        present.today.dayNumber < days * numberOf n.toList)) ∧
    (∀ d, readRelative present ("P" ++ n ++ "Y" ++ m ++ "M") = .ok d ↔
      present.today.monthsBefore (12 * numberOf n.toList + numberOf m.toList : Nat) = .ok d) ∧
    (IsRefused (readRelative present ("P" ++ n ++ "Y" ++ m ++ "M")) ↔
      ∃ fault, present.today.monthsBefore (12 * numberOf n.toList + numberOf m.toList : Nat) =
        .error fault) := by
  obtain ⟨text, hmonths⟩ := readRelative_yearsAndMonths htime hn hm
  refine ⟨?_, ?_, ?_, ?_⟩
  · intro unit
    obtain ⟨ago, hago⟩ := readRelative_ago present hn unit
    obtain ⟨duration, hduration⟩ := readRelative_duration htime hn unit
    rw [hago, hduration]
    exact agree_unitsBefore ago duration _ _ unit
  · rintro unit days hdays
    obtain ⟨ago, hago⟩ := readRelative_ago present hn unit
    rw [hago, unitsBefore_of_days? hdays]
    exact ⟨fun d => daysBefore_eq_ok_iff, isRefused_daysBefore⟩
  · intro d
    rw [hmonths]
    exact monthsBefore_eq_ok_iff
  · rw [hmonths]
    exact isRefused_monthsBefore

def leapDay : Present := ⟨(Date.of? 2024 2 29).get (by decide), 86399999999⟩

def threeWeeksBack : Date := (Date.of? 2024 2 8).get (by decide)

def yearAndThreeMonthsBack : Date := (Date.of? 2022 11 29).get (by decide)

/-- Digits of any script, at the end of a leap day: years and months lead to the same day of an
earlier month, and the calendar does not reach 900000 days back. -/
theorem readRelative_notations_leapDay :
    leapDay.timeMicros < microsPerDay ∧ IsNumeral "1" ∧ IsNumeral "٣" ∧ IsNumeral "900000" ∧
      Agree (readRelative leapDay "1 years ago") (readRelative leapDay "P1Y") ∧
      readRelative leapDay "P1Y٣M" = .ok yearAndThreeMonthsBack ∧
      readRelative leapDay "٣ weeks ago" = .ok threeWeeksBack ∧
      IsRefused (readRelative leapDay "900000 days ago") := by
  have htime : leapDay.timeMicros < microsPerDay := by decide
  have hone : IsNumeral "1" := ⟨by decide, by decide, by decide⟩
  have hthree : IsNumeral "٣" := ⟨by decide, by decide, by decide⟩
  have hmany : IsNumeral "900000" := ⟨by decide, by decide, by decide⟩
  obtain ⟨hagree, -, hmonths, -⟩ := readRelative_notations htime hone hthree
  obtain ⟨-, hweeks, -, -⟩ := readRelative_notations htime hthree hone
  obtain ⟨-, hdays, -, -⟩ := readRelative_notations htime hmany hone
  exact ⟨htime, hone, hthree, hmany, hagree .year, (hmonths _).mpr rfl,
    ((hweeks .week 7 rfl).1 threeWeeksBack).mpr (by decide), (hdays .day 1 rfl).2.mpr (by decide)⟩

end DayText

end LinkShelf
