import LinkShelf.Proofs.Calendar.Reckoning

/-!
Dates and day numbers. Main statement: a date is the one that its day number names, and no other
number names it (`ofDayNumber?_eq_some_iff`).
-/

namespace LinkShelf

section

variable {start size : Nat → Nat} {a b x y : Nat}
variable (hnext : ∀ k, 1 ≤ k → start (k + 1) = start k + size k)

include hnext

/-- Of two blocks in a row, the first ends before the second starts. -/
theorem block_before (ha : 1 ≤ a) (hab : a < b) : start a + size a ≤ start b := by
  induction hab with
  | refl => exact Nat.le_of_eq (hnext a ha).symm
  | @step k hk ih =>
      rw [hnext k (Nat.le_trans ha (Nat.le_of_lt hk))]
      omega

/-- A place in a row of blocks is in one block only, and at one place in it. -/
theorem blocks_unique (ha : 1 ≤ a) (hb : 1 ≤ b) (hx : x < size a) (hy : y < size b)
    (heq : start a + x = start b + y) : a = b ∧ x = y := by
  rcases Nat.lt_trichotomy a b with hlt | rfl | hlt
  · have := block_before hnext ha hlt
    omega
  · exact ⟨rfl, Nat.add_left_cancel heq⟩
  · have := block_before hnext hb hlt
    omega

end

theorem daysBeforeYear_succ {year : Nat} (hyear : 1 ≤ year) :
    daysBeforeYear (year + 1) = daysBeforeYear year + daysInYear year := by
  obtain ⟨n, rfl⟩ := Nat.exists_eq_add_of_le' hyear
  have hfour : (n + 1) / 4 = n / 4 + if (n + 1) % 4 = 0 then 1 else 0 := by
    split <;> omega
  have hhundred : (n + 1) / 100 = n / 100 + if (n + 1) % 100 = 0 then 1 else 0 := by
    split <;> omega
  have hera : (n + 1) / 400 = n / 400 + if (n + 1) % 400 = 0 then 1 else 0 := by
    split <;> omega
  have hless : n / 100 ≤ n / 4 := Nat.div_le_div_left (by decide) (by decide)
  simp only [daysBeforeYear, daysInYear, isLeapYear, Nat.add_sub_cancel, Bool.and_eq_true,
    Bool.or_eq_true, beq_iff_eq, bne_iff_ne, hfour, hhundred, hera]
  generalize n / 4 = fours at *
  generalize n / 100 = hundreds at *
  generalize n / 400 = eras at *
  split <;> split <;> split <;> split <;> omega

namespace Date

theorem dayNumber_injective {d e : Date} (heq : d.dayNumber = e.dayNumber) : d = e := by
  rw [dayNumber, dayNumber, Nat.add_assoc, Nat.add_assoc] at heq
  obtain ⟨hyear, hrest⟩ := blocks_unique (fun _ => daysBeforeYear_succ) d.year_pos e.year_pos
    d.rest_lt e.rest_lt heq
  have hday := d.day_le
  have hpos := d.day_pos
  have hday' := e.day_le
  have hpos' := e.day_pos
  rw [hyear] at hrest hday
  obtain ⟨hmonth, hrest⟩ := blocks_unique (fun _ => daysBeforeMonth_succ (isLeapYear e.year))
    d.month_pos e.month_pos (by omega) (by omega) hrest
  have hsame : d.day = e.day := by omega
  cases d
  cases e
  cases hyear
  cases hmonth
  cases hsame
  rfl

/-- The date with a day number is the only one with it. -/
theorem ofDayNumber?_eq_some_iff {n : Nat} {d : Date} :
    ofDayNumber? n = some d ↔ d.dayNumber = n := by
  have hfound : ∀ m < dayCount, ∃ e, ofDayNumber? m = some e ∧ e.dayNumber = m := by
    intro m hm
    obtain ⟨e, he, hnumber⟩ := of?_reckoned hm
    exact ⟨e, he, hnumber⟩
  constructor
  · intro hd
    obtain ⟨e, he, hnumber⟩ := hfound n (ofDayNumber?_isSome_iff.mp (by simp [hd]))
    rw [hd, Option.some.injEq] at he
    rw [he, hnumber]
  · rintro rfl
    obtain ⟨e, he, hnumber⟩ := hfound d.dayNumber d.dayNumber_lt
    rw [he, dayNumber_injective hnumber]

@[simp] theorem ofDayNumber?_dayNumber (d : Date) : ofDayNumber? d.dayNumber = some d :=
  ofDayNumber?_eq_some_iff.mpr rfl

end Date

end LinkShelf
