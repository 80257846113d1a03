import LinkShelf.Proofs.Calendar.Months
import LinkShelf.Proofs.Calendar.RelativeDays
import LinkShelf.Proofs.Query.Comparisons
import LinkShelf.Proofs.Query.Tagged

/-!
Terms that name a day. Main statements: a term with a date finds the bookmarks of that day, of
earlier or of later days, and the three together are those that have a day (`dated_terms_part`); a
word for a day that is not read is refused, with one exception (`relative_days_settle`).
-/

namespace LinkShelf

open Text

variable {present : Present} {zone : Zone} {bookmarks : List Bookmark} {field : DateField}
variable {d : Date} {name text sign : String} {op : Comparison}

/-- What compares with something as less, equal or greater is what compares with it at all. -/
theorem perm_filter_compared {α : Type} (key : α → Option Ordering) (items : List α) :
    (items.filter (fun a => key a = some .lt) ++ (items.filter (fun a => key a = some .eq) ++
      items.filter (fun a => key a = some .gt))).Perm (items.filter fun a => (key a).isSome) := by
  induction items with
  | nil => exact .nil
  | cons a items ih =>
      cases hkey : key a with
      | none => simpa [hkey] using ih
      | some order =>
          cases order with
          | lt => simpa [hkey] using ih
          | eq => simpa [hkey] using List.perm_middle.trans (ih.cons a)
          | gt =>
              simp only [List.filter_cons, hkey, reduceCtorEq, decide_false, Bool.false_eq_true,
                if_false, decide_true, if_true, Option.isSome_some, Option.some.injEq]
              rw [← List.append_assoc]
              refine List.perm_middle.trans ?_
              rw [List.append_assoc]
              exact ih.cons a

/-! ## Dates in terms -/

theorem lower_strip_of_mem_actions (hname : name ∈ (Quantity.day field).actions) :
    ':' ∉ name.toList ∧ lower (strip name.toList) = name.toList := by
  have hnames : ∀ field, ∀ name ∈ (Quantity.day field).actions,
      ':' ∉ name.toList ∧ lower (strip name.toList) = name.toList := by
    intro field
    cases field <;> decide
  exact hnames field name hname

theorem isSignChar_of_ofSign? (hsign : Comparison.ofSign? sign = some op) :
    ∀ c ∈ sign.toList, isSignChar c = true := by
  unfold Comparison.ofSign? at hsign
  split at hsign
  · decide
  · decide
  · decide
  · decide
  · decide
  · decide
  · decide
  · cases hsign

theorem isSignChar_of_isDigit {c : Char} (hc : c.isDigit = true) : isSignChar c = false := by
  rw [← Bool.not_eq_true]
  intro hsign
  simp only [isSignChar, Bool.or_eq_true, beq_iff_eq] at hsign
  obtain (rfl | rfl) | rfl := hsign <;> revert hc <;> decide

theorem notBlank_of_written (hsign : Comparison.ofSign? sign = some op)
    (htext : d.IsWrittenAs text) : ∀ c ∈ (sign ++ text).toList, isBlank c = false := by
  intro c hc
  rw [String.toList_append, List.mem_append] at hc
  rcases hc with hc | hc
  · exact isBlank_of_isSignChar (isSignChar_of_ofSign? hsign c hc)
  · exact DayText.isBlank_of_isWrittenAs htext c hc

namespace Query

/-- A term with a date compares the days of bookmarks with it. -/
theorem resultOf_day (present : Present) (hname : name ∈ (Quantity.day field).actions)
    (hsign : Comparison.ofSign? sign = some op) (htext : d.IsWrittenAs text)
    (hdates : ∀ b ∈ bookmarks, ∀ t, field.of b = some t → t.HasLocalDate zone) :
    resultOf present zone (name ++ ":" ++ (sign ++ text)) bookmarks =
      .ok (bookmarks.filter fun b => (field.localDate? zone b).any fun e =>
        op.Relates e.dayNumber d.dayNumber) := by
  have hblank := notBlank_of_written hsign htext
  have hline : '\n' ∉ (sign ++ text).toList := fun hc => by
    have := hblank _ hc
    revert this
    decide
  obtain ⟨hcolon, hlower⟩ := lower_strip_of_mem_actions hname
  obtain ⟨c, cs, hcs, hc⟩ := DayText.exists_digit_of_isWrittenAs htext
  have hsplit : Comparison.split? (sign ++ text).toList = some (op, text.toList) := by
    rw [String.toList_append, hcs] at hline ⊢
    exact Comparison.split?_complete hsign (isSignChar_of_isDigit hc) hline
  have hread : DayText.read present text = .ok d := by
    rw [DayText.read, DayText.readAbsolute_of_isWrittenAs htext]
  apply resultOf_keep (.day field op d)
  · rw [ofWord_action hcolon hlower, strip_of_forall hblank, String.ofList_toList,
      Quantity.compile_eq hname, Quantity.action_eq_ok_iff]
    refine ⟨op, text.toList, .day field op d, hsplit, ?_, rfl⟩
    rw [String.ofList_toList, Quantity.test?, hread]
    rfl
  · exact fun b hb => Filter.holds_day_eq (hdates b hb) op d

theorem filter_relates {order : Ordering}
    (horder : ∀ x y : Nat, op.Relates x y ↔ compare x y = order) :
    (bookmarks.filter fun b => (field.localDate? zone b).any fun e =>
        op.Relates e.dayNumber d.dayNumber) =
      bookmarks.filter fun b => (field.localDate? zone b).map
        (fun e => compare e.dayNumber d.dayNumber) = some order := by
  apply List.filter_congr
  intro b _
  cases field.localDate? zone b with
  | none => rfl
  | some e => simp [horder]

/-- Where all moments fall on days of the calendar, a term with a date finds the bookmarks of that
day, and with a sign those of earlier or of later days: together, and each once, all that have the
moment that is asked for. -/
theorem dated_terms_part (present : Present)
    (hdates : ∀ b ∈ bookmarks, ∀ t, field.of b = some t → t.HasLocalDate zone) :
    (∀ b ∈ bookmarks, ∀ t, field.of b = some t → ∃ d, field.localDate? zone b = some d) ∧
    ∀ (d : Date) (text name : String), d.IsWrittenAs text → name ∈ (Quantity.day field).actions →
      ∃ earlier same later,
        resultOf present zone (name ++ ":" ++ ("<" ++ text)) bookmarks = .ok earlier ∧
        resultOf present zone (name ++ ":" ++ text) bookmarks = .ok same ∧
        resultOf present zone (name ++ ":" ++ (">" ++ text)) bookmarks = .ok later ∧
        earlier = (bookmarks.filter fun b => (field.localDate? zone b).any fun e =>
          e.dayNumber < d.dayNumber) ∧
        same = (bookmarks.filter fun b => field.localDate? zone b = some d) ∧
        later = (bookmarks.filter fun b => (field.localDate? zone b).any fun e =>
          d.dayNumber < e.dayNumber) ∧
        (earlier ++ (same ++ later)).Perm (bookmarks.filter fun b => (field.of b).isSome) := by
  have hfound : ∀ b ∈ bookmarks, ∀ t, field.of b = some t →
      ∃ d, field.localDate? zone b = some d := by
    intro b hb t ht
    rw [DateField.localDate?, ht]
    exact Option.isSome_iff_exists.mp (Instant.localDate?_isSome_iff.mpr (hdates b hb t ht))
  refine ⟨hfound, ?_⟩
  intro d text name htext hname
  have hlessSign : Comparison.ofSign? "<" = some .less := rfl
  have hnoSign : Comparison.ofSign? "" = some .equal := rfl
  have hgreaterSign : Comparison.ofSign? ">" = some .greater := rfl
  have hless := resultOf_day present hname hlessSign htext hdates
  have hequal := resultOf_day present hname hnoSign htext hdates
  have hgreater := resultOf_day present hname hgreaterSign htext hdates
  rw [String.empty_append] at hequal
  refine ⟨_, _, _, hless, hequal, hgreater, ?_, ?_, ?_, ?_⟩
  · simp only [Comparison.Relates, Int.ofNat_lt]
  · apply List.filter_congr
    intro b _
    cases field.localDate? zone b with
    | none => rfl
    | some e =>
        simp only [Comparison.Relates, Int.ofNat_inj, Option.any_some, Option.some.injEq]
        exact decide_eq_decide.mpr ⟨Date.dayNumber_injective, congrArg Date.dayNumber⟩
  · simp only [Comparison.Relates, Int.ofNat_lt]
  · have hlt : ∀ x y : Nat, Comparison.less.Relates x y ↔ compare x y = .lt := fun x y => by
      rw [Nat.compare_eq_lt, Comparison.Relates, Int.ofNat_lt]
    have heq : ∀ x y : Nat, Comparison.equal.Relates x y ↔ compare x y = .eq := fun x y => by
      rw [Nat.compare_eq_eq, Comparison.Relates, Int.ofNat_inj]
    have hgt : ∀ x y : Nat, Comparison.greater.Relates x y ↔ compare x y = .gt := fun x y => by
      rw [Nat.compare_eq_gt, Comparison.Relates, Int.ofNat_lt]
    rw [filter_relates hlt, filter_relates heq, filter_relates hgt]
    refine (perm_filter_compared _ bookmarks).trans (.of_eq ?_)
    apply List.filter_congr
    intro b hb
    rw [Option.isSome_map, DateField.localDate?]
    cases hmoment : field.of b with
    | none => rfl
    | some t => exact Instant.localDate?_isSome_iff.mpr (hdates b hb t hmoment)

def january2 : Date := (Date.of? 2020 1 2).get (by decide)

theorem january2_isWrittenAs : january2.IsWrittenAs "2020/1/02" :=
  ⟨'/', by decide, 1, by decide, 2, by decide, by decide⟩

/-- Eight hours east of Universal Time the evening of the first is on the second of January. -/
theorem dated_terms_part_samplePages :
    (∀ b ∈ samplePages, ∀ t, DateField.of .lastVisited b = some t → t.HasLocalDate farEast) ∧
      january2.IsWrittenAs "2020/1/02" ∧ "visited" ∈ (Quantity.day .lastVisited).actions ∧
      ∃ earlier same later,
        resultOf samplePresent farEast "visited:<2020/1/02" samplePages = .ok earlier ∧
        resultOf samplePresent farEast "visited:2020/1/02" samplePages = .ok same ∧
        resultOf samplePresent farEast "visited:>2020/1/02" samplePages = .ok later ∧
        earlier.map Bookmark.url = ["http://www.a.org/"] ∧
        same.map Bookmark.url = ["http://b.org/", "http://a.org/"] ∧ later = [] ∧
        (earlier ++ (same ++ later)).Perm
          (samplePages.filter fun b => (DateField.of .lastVisited b).isSome) := by
  have hdates := samplePages_findDates .lastVisited rfl
  have hname : "visited" ∈ (Quantity.day .lastVisited).actions := by decide
  refine ⟨hdates, january2_isWrittenAs, hname, ?_⟩
  obtain ⟨-, hday⟩ := dated_terms_part samplePresent hdates
  obtain ⟨earlier, same, later, hless, hequal, hgreater, rfl, rfl, rfl, hparts⟩ :=
    hday january2 "2020/1/02" "visited" january2_isWrittenAs hname
  exact ⟨_, _, _, hless, hequal, hgreater, by decide, by decide, rfl, hparts⟩

/-! ## Words for days -/

/-- A text is read as a day counted from today, or refused; so a term that asks for a day gives a
stage or is refused, too. Only one word fails otherwise, and only on the first day of the calendar:
the word for the day before. -/
theorem relative_days_settle (present : Present) :
    (∀ s, ((∃ d, DayText.readRelative present s = .ok d) ∨
        DayText.IsRefused (DayText.readRelative present s)) ↔
      ¬(present.today.dayNumber = 0 ∧ DayText.NamesYesterday s)) ∧
    (∀ s, DayText.readRelative present s = .error .noYesterday ↔
      present.today.dayNumber = 0 ∧ DayText.NamesYesterday s) ∧
    ∀ field name argument, name ∈ (Quantity.day field).actions →
      (((∃ stage, Registry.builtin.compile present ⟨name, argument⟩ = .ok stage) ∨
          ∃ fault, Registry.builtin.compile present ⟨name, argument⟩ = .error (.query fault)) ↔
        ¬(present.today.dayNumber = 0 ∧ Action.ComparesYesterday argument)) ∧
      (Registry.builtin.compile present ⟨name, argument⟩ = .error (.day .noYesterday) ↔
        present.today.dayNumber = 0 ∧ Action.ComparesYesterday argument) := by
  refine ⟨?_, fun s => DayText.readRelative_eq_noYesterday_iff, ?_⟩
  · intro s
    rw [← DayText.readRelative_eq_noYesterday_iff]
    cases DayText.readRelative present s with
    | ok d => exact iff_of_true (.inl ⟨d, rfl⟩) nofun
    | error fault =>
        by_cases hfault : fault = .noYesterday
        · rw [hfault]
          refine iff_of_false ?_ (not_not_intro rfl)
          rintro (⟨d, hd⟩ | ⟨other, hother, hname⟩)
          · cases hd
          · cases hother
            revert hname
            decide
        · refine iff_of_true (.inr (DayText.isRefused_error hfault)) ?_
          rintro ⟨⟩
          exact hfault rfl
  · intro field name argument hname
    rw [Quantity.compile_eq hname]
    have hfails : (Quantity.day field).action present ⟨name, argument⟩ =
        .error (.day .noYesterday) ↔
          present.today.dayNumber = 0 ∧ Action.ComparesYesterday argument :=
      Action.day_eq_noYesterday_iff
    refine ⟨?_, hfails⟩
    by_cases hday : present.today.dayNumber = 0 ∧ Action.ComparesYesterday argument
    · rw [hfails.mpr hday]
      refine iff_of_false ?_ (not_not_intro hday)
      rintro (⟨stage, hstage⟩ | ⟨fault, hfault⟩)
      · cases hstage
      · cases hfault
    · refine iff_of_true ?_ hday
      cases hresult : (Quantity.day field).action present ⟨name, argument⟩ with
      | ok stage => exact .inl ⟨stage, rfl⟩
      | error fault =>
          obtain ⟨cause, rfl⟩ := Action.day_failsAs (t := ⟨name, argument⟩) hday fault hresult
          exact .inr ⟨_, rfl⟩

def firstPresent : Present := ⟨Date.firstDate, 0⟩

/-- On the first day of the calendar, a day ago is refused. -/
theorem relative_days_settle_dayAgo :
    "visited" ∈ (Quantity.day .lastVisited).actions ∧
      ((∃ d, DayText.readRelative firstPresent "1 day ago" = .ok d) ∨
        DayText.IsRefused (DayText.readRelative firstPresent "1 day ago")) ∧
      ∃ fault, Registry.builtin.compile firstPresent ⟨"visited", ">1 day ago"⟩ =
        .error (.query fault) := by
  have hname : "visited" ∈ (Quantity.day .lastVisited).actions := by decide
  obtain ⟨hread, -, hcompile⟩ := relative_days_settle firstPresent
  refine ⟨hname, (hread _).mpr (fun h => absurd h.2 (by decide)), ?_⟩
  obtain ⟨stage, hstage⟩ | hrefused :=
    (hcompile .lastVisited "visited" ">1 day ago" hname).1.mpr <| by
      rintro ⟨-, op, operand, hsplit, hyesterday⟩
      cases hsplit
      revert hyesterday
      decide
  · cases hstage
  · exact hrefused

/-- On the first day of the calendar, the word for the day before is not refused: there is no such
day to reckon with. -/
theorem yesterday_fails_firstDay :
    DayText.readRelative firstPresent "yesterday" = .error .noYesterday ∧
      (Failure.day .noYesterday).name = "OverflowError" ∧
      Registry.builtin.compile firstPresent ⟨"created", "yesterday"⟩ =
        .error (.day .noYesterday) :=
  ⟨rfl, rfl, rfl⟩

end Query

end LinkShelf
