import LinkShelf.Proofs.Calendar.WholeSeconds
import LinkShelf.Proofs.CommandLine.Runs
import LinkShelf.Proofs.Store.CreationTimes

/-!
The times of bookmarks over runs of the program. Main statement: in a directory that was without
records once, all bookmarks have times that are in order and not after the present, whatever was
asked of the program but to import files, and whatever failed (`times_stay_ordered`).
-/

namespace LinkShelf

namespace Instant

variable {t u : Instant}

theorem wholeSecond_mono (h : t.micros ≤ u.micros) :
    t.wholeSecond.micros ≤ u.wholeSecond.micros := by
  simp only [wholeSecond, microsPerSecond]
  omega

theorem isRecordable_wholeSecond (hyear : 1000 ≤ t.yearMonthDay.1) :
    t.wholeSecond.IsRecordable :=
  ⟨by rwa [t.yearMonthDay_wholeSecond], t.wholeSecond_micros_mod⟩

end Instant

namespace Bookmark

variable {b : Bookmark} {now later : Instant}

/-- Whether a bookmark was created, then modified for the last time, and neither modified nor
visited after a moment. -/
structure HasOrderedTimes (now : Instant) (b : Bookmark) : Prop where
  ordered : ∃ created modified, b.created = some created ∧ b.modified = some modified ∧
    created.micros ≤ modified.micros ∧ modified.micros ≤ now.micros
  visited : ∀ t, b.lastVisited = some t → t.micros ≤ now.micros

/-- Whether a bookmark has ordered times and is as it is read from its record. -/
structure IsTimely (now : Instant) (b : Bookmark) : Prop where
  textual : b.IsTextual
  dated : b.IsDated
  times : b.HasOrderedTimes now

theorem HasOrderedTimes.mono (h : b.HasOrderedTimes now) (hle : now.micros ≤ later.micros) :
    b.HasOrderedTimes later := by
  obtain ⟨⟨c, m, hc, hm, hcm, hmodified⟩, hvisited⟩ := h
  exact ⟨⟨c, m, hc, hm, hcm, hmodified.trans hle⟩, fun t ht => (hvisited t ht).trans hle⟩

theorem IsTimely.mono (h : b.IsTimely now) (hle : now.micros ≤ later.micros) : b.IsTimely later :=
  ⟨h.textual, h.dated, h.times.mono hle⟩

theorem IsTimely.created_le (h : b.IsTimely now) {t : Instant} (ht : b.created = some t) :
    t.micros ≤ now.micros := by
  obtain ⟨c, m, hc, -, hcm, hmodified⟩ := h.times.ordered
  cases hc.symm.trans ht
  exact hcm.trans hmodified

/-- Whether a bookmark is timely when the times that it lacks are filled in at a moment: it has no
time after the moment, and was not modified before it was created. -/
structure IsTimelyOnce (now : Instant) (b : Bookmark) : Prop where
  textual : b.IsTextual
  dated : b.IsDated
  created : ∀ t, b.created = some t → t.micros ≤ now.micros
  modified : ∀ t, b.modified = some t → b.HasOrderedTimes now
  visited : ∀ t, b.lastVisited = some t → t.micros ≤ now.micros

theorem IsTimely.isTimelyOnce (h : b.IsTimely now) : b.IsTimelyOnce now :=
  ⟨h.textual, h.dated, fun _ => h.created_le, fun _ _ => h.times, h.times.visited⟩

theorem IsTextual.withTimes (hb : b.IsTextual) (created modified lastVisited : Option Instant) :
    ({ b with created, modified, lastVisited } : Bookmark).IsTextual :=
  ⟨⟨hb.tags, hb.visitCount⟩, hb.title, hb.notes, hb.image, hb.color⟩

/-- A bookmark is timely when the times that it lacks are filled in. -/
theorem IsTimelyOnce.filled (hb : b.IsTimelyOnce now) (hnow : now.IsRecordable)
    {inherited : Option Instant} (hinherited : ∀ t, inherited = some t →
      t.IsRecordable ∧ t.micros ≤ now.micros) :
    ({ b with
      created := some (b.created.getD (inherited.getD now))
      modified := some (b.modified.getD now) } : Bookmark).IsTimely now := by
  have hfirst : (inherited.getD now).IsRecordable ∧ (inherited.getD now).micros ≤ now.micros := by
    cases inherited with
    | none => exact ⟨hnow, le_refl _⟩
    | some t => exact hinherited t rfl
  have hcreated : (b.created.getD (inherited.getD now)).IsRecordable ∧
      (b.created.getD (inherited.getD now)).micros ≤ now.micros := by
    cases hc : b.created with
    | none => exact hfirst
    | some c => exact ⟨hb.dated.created c hc, hb.created c hc⟩
  refine ⟨hb.textual.withTimes _ _ _, ⟨?_, ?_, hb.dated.lastVisited⟩, ?_, hb.visited⟩
  · rintro t ⟨⟩
    exact hcreated.1
  · rintro t ⟨⟩
    cases hm : b.modified with
    | none => exact hnow
    | some m => exact hb.dated.modified m hm
  · cases hm : b.modified with
    | none => exact ⟨_, _, rfl, rfl, hcreated.2, le_refl _⟩
    | some m =>
        obtain ⟨c, last, hc, hlast, hcm, hmodified⟩ := (hb.modified m hm).ordered
        cases hm.symm.trans hlast
        exact ⟨c, m, by rw [hc]; rfl, rfl, hcm, hmodified⟩

/-- A timely bookmark stays so when it is visited. -/
theorem IsTimely.visited {after : Bookmark} (hb : b.IsTimely now) (hnow : now.IsRecordable)
    (hvisited : b.visited now = .ok after) : after.IsTimely now := by
  obtain rfl := Store.eq_of_visited hvisited
  obtain ⟨htextual, hdated, htimes⟩ := hb
  have hcount : nextVisit b.visitCount = .null ∨ ∃ n : Nat, nextVisit b.visitCount = .int n := by
    obtain hnull | ⟨n, hn⟩ := htextual.visitCount
    · rw [hnull]
      exact .inr ⟨1, rfl⟩
    · rw [hn, nextVisit]
      split
      · exact .inr ⟨1, rfl⟩
      · exact .inr ⟨n + 1, rfl⟩
  refine ⟨⟨⟨htextual.tags, hcount⟩, htextual.title, htextual.notes, htextual.image,
    htextual.color⟩, ⟨hdated.created, hdated.modified, ?_⟩, htimes.ordered, ?_⟩
  · rintro t ⟨⟩
    exact hnow
  · rintro t ⟨⟩
    exact le_refl _

end Bookmark

namespace Store

open RecordDirectory

variable {b : Bookmark} {now : Instant}

theorem isStorable_of_isTimelyOnce (hnow : now.IsRecordable) (hb : b.IsTimelyOnce now) :
    IsStorable (Bookmark.IsTimely now) (Bookmark.IsTimely now) now b := by
  intro existing stored hexisting hstored
  rw [eq_of_changed hstored]
  refine hb.filled hnow ?_
  intro t ht
  obtain ⟨other, hother, hcreated⟩ := Option.bind_eq_some_iff.mp ht
  have htimely := hexisting other hother
  exact ⟨htimely.dated.created t hcreated, htimely.created_le hcreated⟩

/-- A timely bookmark lacks no times. -/
theorem eq_of_completed {updated : Bookmark} {turn : Instant} (hb : b.IsTimely now)
    (hupdated : completed turn b = .ok updated) : updated = b := by
  obtain ⟨c, m, hc, hm, -⟩ := hb.times.ordered
  rw [Bookmark.checked_eq_ok hupdated, hc, hm]
  obtain ⟨locator, title, notes, image, tags, color, created, modified, lastVisited, count⟩ := b
  cases hc
  cases hm
  rfl

/-- The clock is not looked at when a store of timely bookmarks is opened. -/
theorem isCompletable_of_isTimely (clock : Nat → Instant) :
    IsCompletable (Bookmark.IsTimely now) (Bookmark.IsTimely now) clock := by
  intro turn b updated hb hupdated existing stored _ hstored
  obtain rfl := eq_of_completed hb hupdated
  obtain ⟨c, m, hc, hm, -⟩ := hb.times.ordered
  rw [missingTimes, hc, hm] at hstored
  cases hstored
  exact hb

end Store

namespace Command

open Bookmark

variable {b : Bookmark} {now : Instant}

/-- What is added to a timely bookmark, or in the place of none, is timely once it is stored. -/
theorem isTimelyOnce_of_bookmarkFor {url : String} {f : GivenFields} {existing : Option Bookmark}
    (hexisting : ∀ other, existing = some other → other.IsTimely now)
    (hb : bookmarkFor url f existing = .ok b) : b.IsTimelyOnce now := by
  cases existing with
  | some other =>
      obtain ⟨htextual, hdated, htimes⟩ := hexisting other rfl
      obtain ⟨title, notes, tags, color, rfl, htitle, hnotes, htags, hcolor⟩ := bookmarkFor_some hb
      refine ⟨⟨⟨?_, htextual.visitCount⟩, ?_, ?_, htextual.image, ?_⟩,
        ⟨hdated.created, nofun, hdated.lastVisited⟩,
        fun _ => (hexisting other rfl).created_le, nofun, htimes.visited⟩
      · obtain rfl | ⟨words, rfl⟩ := htags
        · exact htextual.tags
        · exact ⟨_, rfl⟩
      · exact htitle.elim (· ▸ htextual.title) id
      · exact hnotes.elim (· ▸ htextual.notes) id
      · obtain rfl | ⟨v, hv⟩ := hcolor
        · exact htextual.color
        · exact color_cases hv
  | none =>
      obtain ⟨locator, title, notes, set, color, v, w, -, hcolor, rfl⟩ := bookmarkFor_none hb
      exact ⟨⟨⟨⟨set, rfl⟩, .inl rfl⟩, ⟨_, rfl⟩, ⟨_, rfl⟩, .inl rfl, color_cases hcolor⟩,
        ⟨nofun, nofun, nofun⟩, nofun, nofun, nofun⟩

theorem isTimelyOnce_of_moved {moved : Bookmark} {target : Locator} (hb : b.IsTimely now)
    (hmoved : b.replace [.locator target, .modified none] = .ok moved) :
    moved.IsTimelyOnce now := by
  rw [checked_eq_ok hmoved]
  have htextual := hb.textual
  exact ⟨⟨⟨htextual.tags, htextual.visitCount⟩, htextual.title, htextual.notes, htextual.image,
    htextual.color⟩, ⟨hb.dated.created, nofun, hb.dated.lastVisited⟩, fun _ => hb.created_le,
    nofun, hb.times.visited⟩

/-- Requests write timely bookmarks. -/
theorem regime_isTimely (hnow : now.IsRecordable) : Regime (IsTimely now) (IsTimely now) now where
  completed := Store.isCompletable_of_isTimely _
  visited hb hvisited :=
    Store.isStorable_of_isTimelyOnce hnow (hb.visited hnow hvisited).isTimelyOnce
  added hexisting hb :=
    Store.isStorable_of_isTimelyOnce hnow (isTimelyOnce_of_bookmarkFor hexisting hb)
  moved hb hmoved := Store.isStorable_of_isTimelyOnce hnow (isTimelyOnce_of_moved hb hmoved)

end Command

/-! ## Record files -/

namespace RecordDirectory

variable {now later : Instant} {content : ByteArray}

/-- Whether bytes are those of the record of a timely bookmark. -/
def IsTimelyRecord (now : Instant) (content : ByteArray) : Prop :=
  ∃ b text, Bookmark.IsTimely now b ∧ recordText b = .ok text ∧ content = text.toUTF8

theorem IsTimelyRecord.mono (h : IsTimelyRecord now content) (hle : now.micros ≤ later.micros) :
    IsTimelyRecord later content := by
  obtain ⟨b, text, hb, htext, rfl⟩ := h
  exact ⟨b, text, hb.mono hle, htext, rfl⟩

theorem IsTimelyRecord.isTimely {stored : Bookmark} (h : IsTimelyRecord now content)
    (hstored : valueOfBytes content = .ok stored) : stored.IsTimely now := by
  obtain ⟨b, text, ⟨htextual, hdated, htimes⟩, htext, rfl⟩ := h
  obtain ⟨hstored, hcreated, hmodified, hvisited⟩ := htextual.of_valueOfBytes hdated htext hstored
  refine ⟨hstored, ⟨?_, ?_, ?_⟩, ?_, ?_⟩
  · rw [hcreated]
    exact hdated.created
  · rw [hmodified]
    exact hdated.modified
  · rw [hvisited]
    exact hdated.lastVisited
  · rw [hcreated, hmodified]
    exact htimes.ordered
  · rw [hvisited]
    exact htimes.visited

theorem discipline_isTimely :
    Discipline (fun _ => IsTimelyRecord now) (Bookmark.IsTimely now) (Bookmark.IsTimely now) where
  read h hstored := h.isTimely hstored
  written hb htext := ⟨_, _, hb, htext, rfl⟩
  kept hb := hb

end RecordDirectory

/-! ## Runs -/

open RecordDirectory

variable {d last : Disk} {runs : List Run} {l : Location} {now : Instant}

/-- If all records are timely at a moment, and runs follow on it in the order of time, all records
are timely in the end. -/
theorem RunsLead.holdsOnly_timely
    (hruns : RunsLead (fun request => ¬request.IsImport) d runs last) {since : Instant}
    (h : HoldsOnly (fun _ => IsTimelyRecord since) l d)
    (hsince : ∀ run ∈ runs, since.micros ≤ run.now.micros)
    (hclock : runs.Pairwise fun run next => run.now.micros ≤ next.now.micros)
    (hrecordable : ∀ run ∈ runs, run.now.IsRecordable)
    (hnow : ∀ run ∈ runs, run.now.micros ≤ now.micros) (hle : since.micros ≤ now.micros) :
    HoldsOnly (fun _ => IsTimelyRecord now) l last := by
  induction hruns generalizing since with
  | nil => exact fun name content hname hfile => (h name content hname hfile).mono hle
  | @cons d last run rest hallowed hrest ih =>
      obtain ⟨hfirst, hclock⟩ := List.pairwise_cons.mp hclock
      obtain ⟨hrun, hrecordable⟩ := List.forall_mem_cons.mp hrecordable
      obtain ⟨hrunNow, hnow⟩ := List.forall_mem_cons.mp hnow
      have hfound : HoldsOnly (fun _ => IsTimelyRecord run.now) l d :=
        fun name content hname hfile =>
          (h name content hname hfile).mono (hsince run List.mem_cons_self)
      refine ih (Run.after_holdsOnly discipline_isTimely (Command.regime_isTimely hrun) hfound ?_)
        hfirst hclock hrecordable hnow hrunNow
      exact fun request hasks himport => absurd himport (hallowed request hasks)

/-- Whether bytes are those of the record of a bookmark with ordered times, and only such bookmarks
are read from them. -/
structure HoldsOrderedTimes (now : Instant) (content : ByteArray) : Prop where
  written : ∃ b text, Bookmark.HasOrderedTimes now b ∧ recordText b = .ok text ∧
    content = text.toUTF8
  read : ∀ b : Bookmark, valueOfBytes content = .ok b → b.HasOrderedTimes now

/-- Runs that import nothing, while the clock does not go back, leave records of bookmarks with
ordered times in a directory without records, and a store that is opened there has only such
bookmarks. -/
theorem times_stay_ordered
    (hempty : ∀ name, isRecordName name = true → d.files.file? (l ++ [name]) = none)
    (hruns : RunsLead (fun request => ¬request.IsImport) d runs last)
    (hclock : runs.Pairwise fun run next =>
      run.surroundings.now.micros ≤ next.surroundings.now.micros)
    (hyears : ∀ run ∈ runs, 1000 ≤ run.surroundings.now.yearMonthDay.1)
    (hnow : ∀ run ∈ runs, run.surroundings.now.micros ≤ now.micros) :
    (∀ name content, isRecordName name = true → last.files.file? (l ++ [name]) = some content →
      HoldsOrderedTimes now.wholeSecond content) ∧
    ∀ found : Disk, found.files = last.files → ∀ clock p r,
      ((Store.load clock p).execute found).1 = .ok r → r.disk.locate r.path = .ok l →
      ∀ b ∈ Store.all r, b.HasOrderedTimes now.wholeSecond := by
  have hstart : HoldsOnly (fun _ => IsTimelyRecord ⟨0, by decide⟩) l d := by
    intro name content hname hfile
    cases (hempty name hname).symm.trans hfile
  have hlast : HoldsOnly (fun _ => IsTimelyRecord now.wholeSecond) l last :=
    hruns.holdsOnly_timely hstart (fun _ _ => Nat.zero_le _)
      (hclock.imp Instant.wholeSecond_mono)
      (fun run hrun => Instant.isRecordable_wholeSecond (hyears run hrun))
      (fun run hrun => Instant.wholeSecond_mono (hnow run hrun)) (Nat.zero_le _)
  constructor
  · intro name content hname hfile
    have hrecord := hlast name content hname hfile
    refine ⟨?_, fun b hb => (hrecord.isTimely hb).times⟩
    obtain ⟨b, text, hb, htext, hcontent⟩ := hrecord
    exact ⟨b, text, hb.times, htext, hcontent⟩
  · intro found hfiles clock p r hopened hlocated b hb
    have hfound : HoldsOnly (fun _ => IsTimelyRecord now.wholeSecond) l found := by
      rwa [HoldsOnly, hfiles]
    obtain ⟨-, hstore⟩ := (Store.load_abides discipline_isTimely
      (Store.isCompletable_of_isTimely clock) hfound p).execute
    obtain ⟨-, k, hk⟩ := hstore r hopened
    obtain rfl : k = l := Except.ok.inj (hk.lies.located.symm.trans hlocated)
    obtain ⟨e, he, rfl⟩ := List.mem_map.mp hb
    exact (hk.entries rfl e he).times

/-! Two people share a shelf: one looks for its tags, the other puts a page there twelve hours
later. -/

open Store

def sharedRun (home : String) (now : Instant) (args : List String) : Run :=
  ⟨⟨⟨[("HOME", home)]⟩, now, .utc⟩, [], fun _ => none, "--store" :: "shelf" :: args⟩

def lookingRun : Run := sharedRun "/ann" noon ["tags"]

def addingRun : Run := sharedRun "/bob" midnight ["add", "b.org"]

def sharedDisk : Disk := addingRun.after (lookingRun.after sampleDisk)

theorem sharedRuns_lead :
    RunsLead (fun request => ¬request.IsImport) sampleDisk [lookingRun, addingRun] sharedDisk := by
  refine .cons ?_ (.cons ?_ (.nil _))
  · intro request hasks
    have hlook : request = .tags := Run.eq_of_asks (by decide +kernel) hasks
    rw [hlook]
    nofun
  · intro request hasks
    have hadd : request = .add "b.org" ⟨none, [], none, none⟩ :=
      Run.eq_of_asks (by decide +kernel) hasks
    rw [hadd]
    nofun

theorem times_stay_ordered_sharedDisk :
    ∃ name content, isRecordName name = true ∧
      sharedDisk.files.file? (["shelf"] ++ [name]) = some content ∧
      HoldsOrderedTimes midnight content := by
  have hempty : ∀ name, isRecordName name = true →
      sampleDisk.files.file? (["shelf"] ++ [name]) = none := fun _ _ => rfl
  have hnow : ∀ run ∈ [lookingRun, addingRun],
      run.surroundings.now.micros ≤ midnight.micros := by
    decide
  obtain ⟨hrecords, -⟩ :=
    times_stay_ordered hempty sharedRuns_lead (by decide) (by decide) hnow
  have hfile :
      (sharedDisk.files.file? (["shelf"] ++ [fileName "http://b.org/"])).isSome = true := by
    decide +kernel
  obtain ⟨content, hcontent⟩ := Option.isSome_iff_exists.mp hfile
  have hname : isRecordName (fileName "http://b.org/") = true := isRecordName_fileName _
  exact ⟨_, content, hname, hcontent, hrecords _ content hname hcontent⟩

end LinkShelf
