import LinkShelf.Proofs.Calendar.DayNumbers

/-!
Steps of calendar months. A date is known from its month and its day in it, and dates come in the
order of their months first (`dayNumber_le_iff`). Main statement: where a step of months leads, how
such steps compare, and how they compose (`monthsBefore_laws`).
-/

namespace LinkShelf

namespace Date

variable {d e f g : Date} {m n : Int}

/-- The number of days of the month that a date lies in. -/
def monthLength (d : Date) : Nat := daysInMonth (isLeapYear d.year) d.month

/-- Whether a month, counted from the year zero, is one of the calendar. -/
def IsMonth (n : Int) : Prop :=
  ∃ year month : Nat, (1 ≤ year ∧ year ≤ 9999) ∧ (1 ≤ month ∧ month ≤ 12) ∧
    n = 12 * year + (month - 1 : Nat)

/-! ## Months and days -/

theorem monthNumber_eq_iff :
    d.monthNumber = e.monthNumber ↔ d.year = e.year ∧ d.month = e.month := by
  have hfirst := d.month_pos
  have hlast := d.month_le
  have hfirst' := e.month_pos
  have hlast' := e.month_le
  rw [monthNumber, monthNumber]
  omega

theorem monthLength_congr (hmonth : d.monthNumber = e.monthNumber) :
    d.monthLength = e.monthLength := by
  obtain ⟨hyear, hmonth⟩ := monthNumber_eq_iff.mp hmonth
  rw [monthLength, monthLength, hyear, hmonth]

theorem eq_of_monthNumber (hmonth : d.monthNumber = e.monthNumber) (hday : d.day = e.day) :
    d = e := by
  obtain ⟨hyear, hmonth⟩ := monthNumber_eq_iff.mp hmonth
  cases d
  cases e
  cases hyear
  cases hmonth
  cases hday
  rfl

/-- All days of a month come before those of later months. -/
theorem dayNumber_lt_of_monthNumber (hmonth : d.monthNumber < e.monthNumber) :
    d.dayNumber < e.dayNumber := by
  have hfirst := d.month_pos
  have hlast := e.month_le
  have hyears : d.year < e.year ∨ d.year = e.year ∧ d.month < e.month := by
    rw [monthNumber, monthNumber] at hmonth
    omega
  rw [dayNumber, dayNumber]
  rcases hyears with hyear | ⟨hyear, hmonth⟩
  · have hblock := block_before (fun _ => daysBeforeYear_succ) d.year_pos hyear
    have hrest := d.rest_lt
    omega
  · have hblock := block_before (fun _ => daysBeforeMonth_succ (isLeapYear e.year)) hfirst hmonth
    have hday := d.day_le
    have hpos := d.day_pos
    rw [hyear] at hday ⊢
    omega

theorem dayNumber_le_iff : d.dayNumber ≤ e.dayNumber ↔
    d.monthNumber < e.monthNumber ∨ d.monthNumber = e.monthNumber ∧ d.day ≤ e.day := by
  have hpos := d.day_pos
  have hpos' := e.day_pos
  rcases Int.lt_trichotomy d.monthNumber e.monthNumber with hmonth | hmonth | hmonth
  · have := dayNumber_lt_of_monthNumber hmonth
    omega
  · obtain ⟨hyear, hsame⟩ := monthNumber_eq_iff.mp hmonth
    rw [dayNumber, dayNumber, hyear, hsame]
    omega
  · have := dayNumber_lt_of_monthNumber hmonth
    omega

theorem isMonth_monthNumber (d : Date) : IsMonth d.monthNumber :=
  ⟨d.year, d.month, ⟨d.year_pos, d.year_le⟩, ⟨d.month_pos, d.month_le⟩, rfl⟩

/-! ## Steps of months -/

theorem exists_monthsBefore (hmonth : IsMonth (d.monthNumber - m)) :
    ∃ e, d.monthsBefore m = .ok e ∧ e.monthNumber = d.monthNumber - m ∧
      e.day = min d.day e.monthLength := by
  obtain ⟨year, month, ⟨hfirst, hlast⟩, ⟨hpos, hle⟩, htotal⟩ := hmonth
  have hyear : (d.monthNumber - m).fdiv 12 = year := by
    rw [htotal, Int.fdiv_eq_ediv_of_nonneg _ (by decide)]
    omega
  have hmonth : ((d.monthNumber - m).fmod 12).toNat + 1 = month := by
    rw [htotal, Int.fmod_eq_emod_of_nonneg _ (by decide)]
    omega
  have hgreat : ¬((year : Int) < leastYear ∨ greatestYear < (year : Int)) := by
    rw [leastYear, greatestYear]
    omega
  have hday : 1 ≤ min d.day (daysInMonth (isLeapYear year) month) := by
    have := d.day_pos
    have := daysInMonth_bounds (isLeapYear year) month
    omega
  refine ⟨⟨year, month, min d.day (daysInMonth (isLeapYear year) month), hfirst, hlast, hpos, hle,
    hday, Nat.min_le_right _ _⟩, ?_, htotal.symm, rfl⟩
  simp only [monthsBefore, hyear, hmonth, if_neg hgreat, Int.toNat_natCast]
  rw [if_neg (by omega), of?, dif_pos ⟨hfirst, hlast, hpos, hle, hday, Nat.min_le_right _ _⟩]

theorem exists_fault_of_not_isMonth (hmonth : ¬IsMonth (d.monthNumber - m)) :
    ∃ fault, d.monthsBefore m = .error fault := by
  have hyear : (d.monthNumber - m).fdiv 12 < 1 ∨ 9999 < (d.monthNumber - m).fdiv 12 := by
    rw [Int.fdiv_eq_ediv_of_nonneg _ (by decide)]
    apply Decidable.byContradiction
    intro hyear
    apply hmonth
    refine ⟨((d.monthNumber - m) / 12).toNat, ((d.monthNumber - m) % 12).toNat + 1, ?_⟩
    omega
  by_cases hfar : (d.monthNumber - m).fdiv 12 < leastYear ∨
      greatestYear < (d.monthNumber - m).fdiv 12
  · exact ⟨_, if_pos hfar⟩
  · exact ⟨_, (if_neg hfar).trans (if_pos hyear)⟩

/-- Where a step of months leads. -/
theorem monthsBefore_eq_ok_iff : d.monthsBefore m = .ok e ↔
    e.monthNumber = d.monthNumber - m ∧ e.day = min d.day e.monthLength := by
  constructor
  · intro he
    by_cases hmonth : IsMonth (d.monthNumber - m)
    · obtain ⟨found, hfound, hspec⟩ := exists_monthsBefore hmonth
      cases hfound.symm.trans he
      exact hspec
    · obtain ⟨fault, hfault⟩ := exists_fault_of_not_isMonth hmonth
      cases hfault.symm.trans he
  · rintro ⟨hmonth, hday⟩
    obtain ⟨found, hfound, hsame, hfoundDay⟩ :=
      exists_monthsBefore (hmonth ▸ e.isMonth_monthNumber : IsMonth (d.monthNumber - m))
    have hmonths : found.monthNumber = e.monthNumber := hsame.trans hmonth.symm
    rw [monthLength_congr hmonths, ← hday] at hfoundDay
    rw [hfound, eq_of_monthNumber hmonths hfoundDay]

theorem monthsBefore_eq_error_iff :
    (∃ fault, d.monthsBefore m = .error fault) ↔ ¬IsMonth (d.monthNumber - m) := by
  constructor
  · rintro ⟨fault, hfault⟩ hmonth
    obtain ⟨e, he, -⟩ := exists_monthsBefore hmonth
    cases hfault.symm.trans he
  · exact exists_fault_of_not_isMonth

/-- No months before a date is the date itself. -/
theorem monthsBefore_zero (d : Date) : d.monthsBefore 0 = .ok d :=
  monthsBefore_eq_ok_iff.mpr ⟨(Int.sub_zero _).symm, (Nat.min_eq_left d.day_le).symm⟩

/-- A day that every month has is not moved. -/
theorem day_of_monthsBefore (he : d.monthsBefore m = .ok e) (hday : d.day ≤ 28) :
    e.day = d.day := by
  have hlength : 28 ≤ e.monthLength := (daysInMonth_bounds _ _).1
  rw [(monthsBefore_eq_ok_iff.mp he).2]
  omega

theorem monthsBefore_mono {d' e' : Date} (he : d.monthsBefore m = .ok e)
    (he' : d'.monthsBefore m = .ok e') (hle : d.dayNumber ≤ d'.dayNumber) :
    e.dayNumber ≤ e'.dayNumber := by
  obtain ⟨hmonth, hday⟩ := monthsBefore_eq_ok_iff.mp he
  obtain ⟨hmonth', hday'⟩ := monthsBefore_eq_ok_iff.mp he'
  rw [dayNumber_le_iff] at hle ⊢
  rcases hle with hlt | ⟨hsame, hle⟩
  · left
    omega
  · right
    have hmonths : e.monthNumber = e'.monthNumber := by rw [hmonth, hmonth', hsame]
    have hlength := monthLength_congr hmonths
    refine ⟨hmonths, ?_⟩
    omega

theorem monthsBefore_strictAnti (he : d.monthsBefore m = .ok e) (hf : d.monthsBefore n = .ok f)
    (hlt : m < n) : f.dayNumber < e.dayNumber := by
  obtain ⟨hmonth, -⟩ := monthsBefore_eq_ok_iff.mp he
  obtain ⟨hmonth', -⟩ := monthsBefore_eq_ok_iff.mp hf
  apply dayNumber_lt_of_monthNumber
  omega

/-- Two steps lead to the month that one step leads to. Only the first one can take days off that
the other does not. -/
theorem monthsBefore_add (he : d.monthsBefore m = .ok e) (hf : e.monthsBefore n = .ok f)
    (hg : d.monthsBefore (m + n) = .ok g) :
    f.monthNumber = g.monthNumber ∧ f.dayNumber ≤ g.dayNumber ∧ (d.day ≤ 28 → f = g) := by
  obtain ⟨hmonth, hday⟩ := monthsBefore_eq_ok_iff.mp he
  obtain ⟨hmonth', hday'⟩ := monthsBefore_eq_ok_iff.mp hf
  obtain ⟨hmonths, hdays⟩ := monthsBefore_eq_ok_iff.mp hg
  have hsame : f.monthNumber = g.monthNumber := by omega
  have hlength := monthLength_congr hsame
  refine ⟨hsame, dayNumber_le_iff.mpr (.inr ⟨hsame, by omega⟩), ?_⟩
  intro hsmall
  apply eq_of_monthNumber hsame
  rw [hday', hdays, day_of_monthsBefore he hsmall, hlength]

theorem monthsBefore_neg (he : d.monthsBefore m = .ok e) (hday : d.day ≤ 28) :
    e.monthsBefore (-m) = .ok d := by
  obtain ⟨hmonth, -⟩ := monthsBefore_eq_ok_iff.mp he
  rw [monthsBefore_eq_ok_iff, day_of_monthsBefore he hday]
  exact ⟨by omega, (Nat.min_eq_left d.day_le).symm⟩

/-- The date some months before another one lies in exactly that month of the calendar, if there is
one, and on the same day, or on the last day of a month that is shorter. It comes no earlier for a
later date, and earlier for more months. Two steps lead to the month of both together, on no later
day; they may be taken together, and taken back, from a day that every month has. -/
theorem monthsBefore_laws (d : Date) :
    (∀ m, (∃ fault, d.monthsBefore m = .error fault) ↔ ¬IsMonth (d.monthNumber - m)) ∧
    (∀ m e, d.monthsBefore m = .ok e ↔
      e.monthNumber = d.monthNumber - m ∧ e.day = min d.day e.monthLength) ∧
    (∀ m (d' e e' : Date), d.monthsBefore m = .ok e → d'.monthsBefore m = .ok e' →
      d.dayNumber ≤ d'.dayNumber → e.dayNumber ≤ e'.dayNumber) ∧
    (∀ m n (e f : Date), d.monthsBefore m = .ok e → d.monthsBefore n = .ok f → m < n →
      f.dayNumber < e.dayNumber) ∧
    (∀ m n (e f g : Date), d.monthsBefore m = .ok e → e.monthsBefore n = .ok f →
      d.monthsBefore (m + n) = .ok g →
      f.monthNumber = g.monthNumber ∧ f.dayNumber ≤ g.dayNumber ∧ (d.day ≤ 28 → f = g)) ∧
    ∀ m (e : Date), d.monthsBefore m = .ok e → d.day ≤ 28 → e.monthsBefore (-m) = .ok d := by
  refine ⟨?_, ?_, ?_, ?_, ?_, ?_⟩
  · intro m
    exact monthsBefore_eq_error_iff
  · intro m e
    exact monthsBefore_eq_ok_iff
  · intro m d' e e' he he' hle
    exact monthsBefore_mono he he' hle
  · intro m n e f he hf hlt
    exact monthsBefore_strictAnti he hf hlt
  · intro m n e f g he hf hg
    exact monthsBefore_add he hf hg
  · intro m e he hday
    exact monthsBefore_neg he hday

def march31 : Date := (of? 2020 3 31).get (by decide)

def february29 : Date := (of? 2020 2 29).get (by decide)

def january29 : Date := (of? 2020 1 29).get (by decide)

def january31 : Date := (of? 2020 1 31).get (by decide)

def firstDate : Date := (of? 1 1 1).get (by decide)

def lastMonth : Date := (of? 9999 12 1).get (by decide)

/-- Two single months back from the end of March lead to an earlier day of January than two at once.
From the first day of the calendar, which has no month before it, there is a way to the last month
and back. -/
theorem monthsBefore_laws_march31 :
    march31.monthsBefore 1 = .ok february29 ∧ february29.monthsBefore 1 = .ok january29 ∧
      march31.monthsBefore (1 + 1) = .ok january31 ∧ january29.dayNumber ≤ january31.dayNumber ∧
      january31.dayNumber < february29.dayNumber ∧
      january29.monthsBefore (-1) = .ok february29 ∧ january31.monthsBefore (-1) = .ok february29 ∧
      february29.dayNumber ≤ february29.dayNumber ∧
      firstDate.monthsBefore (-119987) = .ok lastMonth ∧ firstDate.day ≤ 28 ∧
      lastMonth.monthsBefore (- -119987) = .ok firstDate ∧
      ¬IsMonth (firstDate.monthNumber - 1) := by
  have hmonth : march31.monthsBefore 1 = .ok february29 := rfl
  have hagain : february29.monthsBefore 1 = .ok january29 := rfl
  have htwo : march31.monthsBefore (1 + 1) = .ok january31 := rfl
  have hback : january29.monthsBefore (-1) = .ok february29 := rfl
  have hbackLast : january31.monthsBefore (-1) = .ok february29 := rfl
  have hlast : firstDate.monthsBefore (-119987) = .ok lastMonth :=
    monthsBefore_eq_ok_iff.mpr (by decide)
  have hday : firstDate.day ≤ 28 := by decide
  obtain ⟨-, -, -, hanti, hadd, -⟩ := monthsBefore_laws march31
  obtain ⟨-, -, hmono, -⟩ := monthsBefore_laws january29
  obtain ⟨herror, -, -, -, -, hneg⟩ := monthsBefore_laws firstDate
  obtain ⟨-, hle, -⟩ := hadd 1 1 _ _ _ hmonth hagain htwo
  exact ⟨hmonth, hagain, htwo, hle, hanti 1 (1 + 1) _ _ hmonth htwo (by decide), hback, hbackLast,
    hmono (-1) _ _ _ hback hbackLast (by decide), hlast, hday, hneg _ _ hlast hday,
    (herror 1).mp ⟨_, rfl⟩⟩

end Date

end LinkShelf
