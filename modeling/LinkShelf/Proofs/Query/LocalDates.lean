import LinkShelf.Proofs.Bookmark.Decoding
import LinkShelf.Proofs.Calendar.Reckoning
import LinkShelf.Proofs.Query.Meaning
import Mathlib.Data.List.Perm.Subperm

/-!
Queries that fail when they are run. Main statement: on bookmarks that were read from records, a
query gives a list exactly if all moments that come to its date tests fall on days of the calendar
in the time zone, and what it gives was there before (`run_eq_ok_iff`).
-/

namespace LinkShelf

variable {zone : Zone} {present : Present} {b : Bookmark} {bookmarks found : List Bookmark}

/-- Every test and every order can be told of a bookmark that was read from a record, where dates
are those of Universal Time. -/
theorem Bookmark.IsDecoded.isQueryable (hb : b.IsDecoded) (htitle : ∃ s, b.title = .text s) :
    b.IsQueryable .utc where
  title := htitle
  tags := by
    obtain ⟨set, hset⟩ := hb.tags
    exact ⟨_, by rw [hset]; rfl⟩
  visitCount := by
    obtain hnull | ⟨n, hn⟩ := hb.visitCount
    · exact .inl hnull
    · exact .inr ⟨.finite (.ofInt n), by rw [hn]; rfl, nofun⟩
  dates := by
    intro field t _
    apply Option.isSome_iff_exists.mp
    exact Instant.localDate?_isSome_iff.mpr t.hasLocalDate_utc

namespace Filter

variable {test : Filter}

/-- Only dates depend on the time zone. -/
theorem holds_of_not_day (htest : ∀ field op date, test ≠ .day field op date) (zone : Zone) :
    test.holds zone b = test.holds .utc b := by
  cases test with
  | day field op date => exact absurd rfl (htest field op date)
  | _ => rfl

theorem holds_day (field : DateField) (op : Comparison) (date : Date) :
    (∃ kept, (day field op date).holds zone b = .ok kept) ∧
        (∀ t, field.of b = some t → t.HasLocalDate zone) ∨
      (day field op date).holds zone b = .error .noLocalDate ∧
        ∃ t, field.of b = some t ∧ ¬t.HasLocalDate zone := by
  rw [holds]
  cases hmoment : field.of b with
  | none => exact .inl ⟨⟨_, rfl⟩, fun _ ht => by cases ht⟩
  | some t =>
      have hlocal : (t.localDate? zone).isSome = true ↔ t.HasLocalDate zone :=
        Instant.localDate?_isSome_iff
      cases hdate : t.localDate? zone with
      | some d =>
          left
          rw [hdate] at hlocal
          constructor
          · exact ⟨_, by simp only [localDate, hdate, ok_bind]; rfl⟩
          · rintro u ⟨⟩
            exact hlocal.mp rfl
      | none =>
          right
          rw [hdate] at hlocal
          constructor
          · simp only [localDate, hdate, error_bind]
          · exact ⟨t, rfl, fun h => by simpa using hlocal.mpr h⟩

end Filter

namespace Stage

variable {stage : Stage} {stages : List Stage}

/-- Whether all moments that a stage asks some bookmarks for fall on days of the calendar. -/
def FindsDates (zone : Zone) (stage : Stage) (bookmarks : List Bookmark) : Prop :=
  ∀ field op date, stage = .keep (.day field op date) →
    ∀ b ∈ bookmarks, ∀ t, field.of b = some t → t.HasLocalDate zone

theorem run_day_cases (zone : Zone) (bookmarks : List Bookmark) (field : DateField)
    (op : Comparison) (date : Date) :
    (∃ found, (keep (.day field op date)).run zone bookmarks = .ok found) ∧
        (∀ b ∈ bookmarks, ∀ t, field.of b = some t → t.HasLocalDate zone) ∨
      (keep (.day field op date)).run zone bookmarks = .error .noLocalDate ∧
        ¬∀ b ∈ bookmarks, ∀ t, field.of b = some t → t.HasLocalDate zone := by
  cases hrun : (keep (.day field op date)).run zone bookmarks with
  | ok found =>
      left
      refine ⟨⟨found, rfl⟩, ?_⟩
      intro b hb
      obtain ⟨kept, hkept⟩ := (filterM_eq_ok_iff.mp hrun).1 b hb
      obtain ⟨-, hlocal⟩ | ⟨hnone, -⟩ := Filter.holds_day field op date
      · exact hlocal
      · cases hkept.symm.trans hnone
  | error fault =>
      right
      obtain ⟨b, hb, hfault⟩ := exists_of_filterM_eq_error hrun
      obtain ⟨⟨kept, hkept⟩, -⟩ | ⟨hnone, t, ht, hlocal⟩ := Filter.holds_day field op date
      · cases hkept.symm.trans hfault
      · rw [Except.error.inj (hfault.symm.trans hnone)]
        exact ⟨rfl, fun h => hlocal (h b hb t ht)⟩

/-- A stage of a builtin action fails only for want of a date. -/
theorem run_cases (zone : Zone) (hstage : ∀ f, stage ≠ .keep (.custom f))
    (hbookmarks : ∀ b ∈ bookmarks, b.IsQueryable .utc) :
    (∃ found, stage.run zone bookmarks = .ok found) ∧ stage.FindsDates zone bookmarks ∨
      stage.run zone bookmarks = .error .noLocalDate ∧ ¬stage.FindsDates zone bookmarks := by
  cases stage with
  | sort o =>
      left
      constructor
      · exact ⟨_, SortOrder.sort_eq_arrange fun b hb => (hbookmarks b hb).key_eq o.field⟩
      · nofun
  | limit n => exact .inl ⟨⟨_, rfl⟩, nofun⟩
  | keep test =>
      by_cases hday : ∃ field op date, test = .day field op date
      · obtain ⟨field, op, date, rfl⟩ := hday
        obtain ⟨hfound, hdates⟩ | ⟨hfault, hdates⟩ :=
          run_day_cases zone bookmarks field op date
        · left
          refine ⟨hfound, ?_⟩
          rintro other op' date' ⟨⟩
          exact hdates
        · exact .inr ⟨hfault, fun h => hdates (h field op date rfl)⟩
      · have htest : ∀ field op date, test ≠ .day field op date := by
          intro field op date heq
          exact hday ⟨field, op, date, heq⟩
        left
        constructor
        · refine ⟨_, filterM_eq_ok_iff.mpr ⟨?_, rfl⟩⟩
          intro b hb
          rw [Filter.holds_of_not_day htest]
          apply (hbookmarks b hb).exists_holds
          rintro f rfl
          exact hstage f rfl
        · rintro field op date ⟨⟩
          exact absurd rfl (htest field op date)

theorem subperm_of_run (hrun : stage.run zone bookmarks = .ok found) :
    found.Subperm bookmarks := by
  cases stage with
  | keep test =>
      obtain ⟨-, rfl⟩ := filterM_eq_ok_iff.mp hrun
      exact List.filter_sublist.subperm
  | sort o =>
      obtain ⟨-, rfl⟩ := SortOrder.sort_eq_ok_iff.mp hrun
      exact (SortOrder.perm_arrange _ _).subperm
  | limit n =>
      cases hrun
      exact (List.take_sublist n bookmarks).subperm

/-- What some stages make of a list, one after the other. -/
def runAll (zone : Zone) (stages : List Stage) (bookmarks : List Bookmark) :
    Except Failure (List Bookmark) :=
  stages.foldlM (fun found stage => stage.run zone found) bookmarks

/-- Whether each stage finds the dates that it asks for, on what the stages before it give. -/
def AllFindDates (zone : Zone) (stages : List Stage) (bookmarks : List Bookmark) : Prop :=
  ∀ front stage back found, stages = front ++ stage :: back →
    runAll zone front bookmarks = .ok found → stage.FindsDates zone found

theorem runAll_cons (stage : Stage) (rest : List Stage) (bookmarks : List Bookmark) :
    runAll zone (stage :: rest) bookmarks =
      stage.run zone bookmarks >>= fun found => runAll zone rest found := by
  rw [runAll, List.foldlM_cons]
  rfl

theorem subperm_of_runAll (hrun : runAll zone stages bookmarks = .ok found) :
    found.Subperm bookmarks := by
  induction stages generalizing bookmarks with
  | nil =>
      cases hrun
      exact List.Subperm.refl found
  | cons stage rest ih =>
      rw [runAll_cons] at hrun
      obtain ⟨next, hnext, hrun⟩ := bind_eq_ok.mp hrun
      exact (ih hrun).trans (subperm_of_run hnext)

theorem allFindDates_cons_iff {rest : List Stage} :
    AllFindDates zone (stage :: rest) bookmarks ↔ stage.FindsDates zone bookmarks ∧
      ∀ found, stage.run zone bookmarks = .ok found → AllFindDates zone rest found := by
  constructor
  · intro h
    refine ⟨h [] stage rest bookmarks rfl rfl, ?_⟩
    rintro next hnext front other back found rfl hrun
    apply h (stage :: front) other back found rfl
    rw [runAll_cons, hnext, ok_bind, hrun]
  · rintro ⟨hstage, hrest⟩ front other back found hsplit hrun
    cases front with
    | nil =>
        cases hsplit
        cases hrun
        exact hstage
    | cons first front =>
        cases hsplit
        rw [runAll_cons] at hrun
        obtain ⟨next, hnext, hrun⟩ := bind_eq_ok.mp hrun
        exact hrest next hnext front other back found rfl hrun

theorem runAll_cases (zone : Zone) (hstages : ∀ stage ∈ stages, ∀ f, stage ≠ .keep (.custom f))
    (hbookmarks : ∀ b ∈ bookmarks, b.IsQueryable .utc) :
    (∃ found, runAll zone stages bookmarks = .ok found) ∧ AllFindDates zone stages bookmarks ∨
      runAll zone stages bookmarks = .error .noLocalDate ∧
        ¬AllFindDates zone stages bookmarks := by
  induction stages generalizing bookmarks with
  | nil =>
      left
      refine ⟨⟨bookmarks, rfl⟩, ?_⟩
      rintro front stage back found hsplit
      cases front <;> cases hsplit
  | cons stage rest ih =>
      obtain ⟨hstage, hrest⟩ := List.forall_mem_cons.mp hstages
      rw [runAll_cons, allFindDates_cons_iff]
      obtain ⟨⟨next, hnext⟩, hdates⟩ | ⟨hfault, hdates⟩ :=
        run_cases zone hstage hbookmarks
      · have hsubperm := subperm_of_run hnext
        rw [hnext, ok_bind]
        obtain ⟨hfound, hall⟩ | ⟨hfault, hall⟩ :=
          ih hrest fun b hb => hbookmarks b (hsubperm.subset hb)
        · left
          refine ⟨hfound, hdates, ?_⟩
          rintro other ⟨⟩
          exact hall
        · exact .inr ⟨hfault, fun h => hall (h.2 next rfl)⟩
      · right
        rw [hfault, error_bind]
        exact ⟨rfl, fun h => hdates h.1⟩

end Stage

/-- Whether a list has the bookmarks that some records hold, whose titles are texts. -/
def AreRead (bookmarks : List Bookmark) : Prop :=
  ∀ b ∈ bookmarks, (∃ record, Bookmark.ofRecord record = .ok b) ∧ ∃ s, b.title = .text s

namespace Query

variable {text : String} {q : Query}

/-- The stages of a query that a text writes are those of builtin actions. -/
theorem not_custom_of_ofText (hq : ofText .builtin present text = .ok q) :
    ∀ stage ∈ q.stages, ∀ f, stage ≠ .keep (.custom f) := by
  rintro stage hstage f rfl
  rw [ofText] at hq
  split at hq
  · obtain ⟨t, -, hcompile⟩ := exists_term_of_stage hq hstage
    obtain ⟨-, horder⟩ | ⟨-, n, hlimit⟩ | ⟨test, htest, hbuiltin⟩ :=
      Registry.compile_builtin hcompile
    · obtain ⟨o, -, ho⟩ := Action.exists_order horder
      cases ho
    · cases hlimit
    · cases htest
      exact hbuiltin f rfl
  · cases hq

/-- A query gives a list exactly if all moments that come to its date tests fall on days of the
calendar in the time zone; otherwise it fails for want of a date. No bookmark is in the list more
often than it was there. Where all moments fall on days of the calendar, every query gives a
list. -/
theorem run_eq_ok_iff (hq : ofText .builtin present text = .ok q) (hbookmarks : AreRead bookmarks)
    (zone : Zone) :
    ((∃ found, q.run zone bookmarks = .ok found) ↔
        Stage.AllFindDates zone q.stages bookmarks) ∧
      (∀ found, q.run zone bookmarks = .ok found → found.Subperm bookmarks) ∧
      (∀ fault, q.run zone bookmarks = .error fault → fault = .noLocalDate) ∧
      ((∀ b ∈ bookmarks, ∀ field t, DateField.of field b = some t → t.HasLocalDate zone) →
        ∃ found, q.run zone bookmarks = .ok found) := by
  have hqueryable : ∀ b ∈ bookmarks, b.IsQueryable .utc := by
    intro b hb
    obtain ⟨⟨record, hrecord⟩, htitle⟩ := hbookmarks b hb
    exact (Bookmark.isDecoded_of_ofRecord hrecord).isQueryable htitle
  have hrun : q.run zone bookmarks = Stage.runAll zone q.stages bookmarks := rfl
  have hcases := Stage.runAll_cases zone (not_custom_of_ofText hq) hqueryable
  have hdates : (∀ b ∈ bookmarks, ∀ field t, DateField.of field b = some t →
      t.HasLocalDate zone) → Stage.AllFindDates zone q.stages bookmarks := by
    intro hlocal front stage back found hsplit hfound field op date _ b hb t ht
    exact hlocal b ((Stage.subperm_of_runAll hfound).subset hb) field t ht
  rw [hrun]
  obtain ⟨⟨found, hfound⟩, hall⟩ | ⟨hfault, hall⟩ := hcases
  · have hless := Stage.subperm_of_runAll hfound
    rw [hfound]
    refine ⟨⟨fun _ => hall, fun _ => ⟨found, rfl⟩⟩, ?_, nofun, fun _ => ⟨found, rfl⟩⟩
    rintro other ⟨⟩
    exact hless
  · rw [hfault]
    refine ⟨⟨nofun, fun h => absurd h hall⟩, nofun, ?_, fun h => absurd (hdates h) hall⟩
    rintro fault ⟨⟩
    rfl

theorem zero_bounded : 0 < dayCount * microsPerDay := by decide

def firstMoment : Instant := ⟨0, zero_bounded⟩

def westward : Zone := ⟨-60⟩

def datedRecord (url created : String) : Json :=
  .object [("url", .text url), ("title", .text "Lean"), ("created", .text created)]

def datedPage (url : String) (t : Instant) : Bookmark where
  locator := ⟨url⟩
  title := .text "Lean"
  notes := .text ""
  image := .null
  tags := .names .empty
  color := .null
  created := some t
  modified := none
  lastVisited := none
  visitCount := .null

theorem ofRecord_datedRecord {url created : String} {t : Instant}
    (hurl : Locator.ofJson (.text url) = .ok ⟨url⟩)
    (hcreated : Timestamp.ofJson (.text created) = .ok (some t)) :
    Bookmark.ofRecord (datedRecord url created) = .ok (datedPage url t) := by
  simp only [Bookmark.ofRecord, datedRecord, List.lookup_cons, List.lookup_nil, String.reduceBEq,
    Option.getD_some, Option.getD_none, hcreated, ok_bind, Bookmark.of, hurl]
  rfl

/-- An hour west of Universal Time, the year 1 begins on a day before the calendar. -/
theorem run_fails_westward : ∃ q b, ofText .builtin samplePresent "created:2020-01-01" = .ok q ∧
    Bookmark.ofRecord (datedRecord "http://b.org/" "0001-01-01") = .ok b ∧
    b.title = .text "Lean" ∧ q.run westward [b] = .error .noLocalDate := by
  refine ⟨_, datedPage "http://b.org/" firstMoment, rfl, ?_, rfl, rfl⟩
  exact ofRecord_datedRecord rfl (toOption_eq_some.mp (by decide +kernel))

def westwardPages : List Bookmark :=
  [datedPage "http://b.org/" firstMoment, datedPage "http://a.org/" morning]

theorem westwardPages_areRead : AreRead westwardPages := by
  simp only [AreRead, westwardPages, List.forall_mem_cons]
  refine ⟨⟨⟨datedRecord "http://b.org/" "0001-01-01", ?_⟩, _, rfl⟩,
    ⟨⟨datedRecord "http://a.org/" "2020-01-01T08:00:00Z", ?_⟩, _, rfl⟩, nofun⟩
  · exact ofRecord_datedRecord rfl (toOption_eq_some.mp (by decide +kernel))
  · exact ofRecord_datedRecord rfl (toOption_eq_some.mp (by decide +kernel))

/-- A page without a local date does no harm where another term has dropped it before. -/
theorem run_eq_ok_iff_westwardPages :
    ∃ q, ofText .builtin samplePresent "site:a.org created:2020-01-01" = .ok q ∧
      AreRead westwardPages ∧
      (∃ found, q.run westward westwardPages = .ok found ∧ found.Subperm westwardPages) ∧
      ¬∀ b ∈ westwardPages, ∀ field t, DateField.of field b = some t → t.HasLocalDate westward := by
  have hq : ofText .builtin samplePresent "site:a.org created:2020-01-01" =
      .ok ⟨[⟨"site", "a.org"⟩, ⟨"created", "2020-01-01"⟩], [.keep (.site "a.org"),
        .keep (.day .created .equal ⟨2020, 1, 1, by decide, by decide, by decide, by decide,
          by decide, by decide⟩)]⟩ := rfl
  obtain ⟨hiff, hless, -⟩ := run_eq_ok_iff hq westwardPages_areRead westward
  refine ⟨_, hq, westwardPages_areRead, ?_, ?_⟩
  · obtain ⟨found, hfound⟩ := hiff.mpr <| by
      rw [Stage.allFindDates_cons_iff]
      refine ⟨nofun, ?_⟩
      intro next hnext
      have hkept : Stage.run westward (.keep (.site "a.org")) westwardPages =
          .ok [datedPage "http://a.org/" morning] := rfl
      cases hkept.symm.trans hnext
      rw [Stage.allFindDates_cons_iff]
      refine ⟨?_, ?_⟩
      · rintro field op date ⟨⟩ b hb t ht
        obtain rfl := List.mem_singleton.mp hb
        obtain rfl := Option.some.inj ht
        decide
      · rintro last - front stage back found hsplit
        cases front <;> cases hsplit
    exact ⟨found, hfound, hless found hfound⟩
  · intro h
    have hfirst := h (datedPage "http://b.org/" firstMoment) (by simp [westwardPages]) .created
      firstMoment rfl
    revert hfirst
    decide

end Query

end LinkShelf
