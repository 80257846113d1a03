import LinkShelf.Proofs.Storage.Writing
import LinkShelf.Proofs.Store.Alike

/-!
The times that bookmarks are given when a store is opened, with some of the writes failing. Main
statement: opening raises nothing, writes the bookmarks that lack a time and no others, each once
and in their order, and leaves for the next opening those whose write failed (`migration`).
-/

namespace LinkShelf

open Operation

namespace Bookmark

variable {b : Bookmark} {now : Instant}

/-- Whether a bookmark has the times of its creation and of its last change. -/
def isComplete (b : Bookmark) : Bool := b.created.isSome && b.modified.isSome

/-- The bookmark with a moment in the place of each of these times that it lacks. -/
def filled (b : Bookmark) (now : Instant) : Bookmark :=
  { b with created := some (b.created.getD now), modified := some (b.modified.getD now) }

theorem checked_filled (hb : b.checked = .ok b) (now : Instant) :
    (b.filled now).checked = .ok (b.filled now) := by
  rw [checked_iff] at hb ⊢
  exact hb

theorem completed_eq_filled (hb : b.checked = .ok b) (now : Instant) :
    Store.completed now b = .ok (b.filled now) :=
  checked_filled hb now

theorem isComplete_filled (b : Bookmark) (now : Instant) : (b.filled now).isComplete = true := rfl

/-- The times of a bookmark make neither its tags nor its numbers worse to write. -/
theorem exists_toRecord_withTimes {record : Json} (hrecord : b.toRecord = .ok record)
    (created modified : Option Instant) :
    ∃ other, ({ b with created, modified } : Bookmark).toRecord = .ok other ∧
      other.hasOversized = record.hasOversized := by
  have htags : ({ b with created, modified } : Bookmark).tags = b.tags := rfl
  rw [toRecord] at hrecord
  split at hrecord
  · next set hset =>
      cases hrecord
      refine ⟨_, by rw [toRecord, htags, hset]; rfl, ?_⟩
      simp only [Json.hasOversized, anyMemberOversized_append, anyMemberOversized_memberAt]
      rfl
  · next v hv =>
      obtain ⟨items, hitems, hrecord⟩ := bind_eq_ok.mp hrecord
      obtain ⟨tags, hsorted, hobject⟩ := bind_eq_ok.mp hrecord
      cases hobject
      refine ⟨_, by rw [toRecord, htags, hv]; simp only [hitems, ok_bind, hsorted]; rfl, ?_⟩
      simp only [Json.hasOversized, anyMemberOversized_append, anyMemberOversized_memberAt]
      rfl

theorem exists_recordText_withTimes {text : String}
    (htext : RecordDirectory.recordText b = .ok text) (created modified : Option Instant) :
    ∃ other, RecordDirectory.recordText ({ b with created, modified } : Bookmark) = .ok other := by
  obtain ⟨record, hrecord, hsize⟩ := bind_eq_ok.mp htext
  obtain ⟨dated, hdated, hsame⟩ := exists_toRecord_withTimes hrecord created modified
  have hencoded : Record.encode ({ b with created, modified } : Bookmark) = .ok dated := hdated
  rw [RecordDirectory.recordText, hencoded, ok_bind, hsame]
  cases hover : record.hasOversized with
  | false => exact ⟨_, rfl⟩
  | true =>
      rw [hover] at hsize
      cases hsize

theorem exists_recordText_filled {text : String} (htext : RecordDirectory.recordText b = .ok text)
    (now : Instant) : ∃ other, RecordDirectory.recordText (b.filled now) = .ok other :=
  exists_recordText_withTimes htext _ _

end Bookmark

namespace Store

variable {clock : Nat → Instant} {turn : Nat} {before after : List Bookmark}
  {attempts : List (Bookmark × Bool)}

/-! ## One bookmark after the other -/

/-- How bookmarks follow from others when they are completed in their order, the moments being those
of a clock from some turn on: with the bookmarks that were to be written, and whether they were. -/
inductive Completes (clock : Nat → Instant) :
    Nat → List Bookmark → List Bookmark → List (Bookmark × Bool) → Prop where
  | nil (turn : Nat) : Completes clock turn [] [] []
  | kept {turn : Nat} {b : Bookmark} {before after : List Bookmark}
      {attempts : List (Bookmark × Bool)} (hb : b.isComplete = true)
      (hrest : Completes clock turn before after attempts) :
      Completes clock turn (b :: before) (b :: after) attempts
  | written {turn : Nat} {b : Bookmark} {before after : List Bookmark}
      {attempts : List (Bookmark × Bool)} (hb : b.isComplete = false)
      (hrest : Completes clock (turn + 1) before after attempts) :
      Completes clock turn (b :: before) (b.filled (clock turn) :: after)
        ((b.filled (clock turn), true) :: attempts)
  | missed {turn : Nat} {b : Bookmark} {before after : List Bookmark}
      {attempts : List (Bookmark × Bool)} (hb : b.isComplete = false)
      (hrest : Completes clock (turn + 1) before after attempts) :
      Completes clock turn (b :: before) (b :: after) ((b.filled (clock turn), false) :: attempts)

/-- The locators of the bookmarks that were to be written and were not. -/
def unwritten (attempts : List (Bookmark × Bool)) : List Locator :=
  (attempts.filter fun tried => !tried.2).map (·.1.locator)

/-- What opening a store does to its bookmarks, in the terms of their places. -/
structure IsMigration (clock : Nat → Instant) (before after : List Bookmark)
    (attempts : List (Bookmark × Bool)) : Prop where
  /-- No bookmark is lost, and none changes its place. -/
  locators : after.map (·.locator) = before.map (·.locator)
  /-- Exactly the bookmarks that lack a time are to be written, each once. -/
  attempted : attempts.map (·.1.locator) =
    (before.filter fun b => !b.isComplete).map (·.locator)
  complete : ∀ {i : Nat} {b : Bookmark}, before[i]? = some b → b.isComplete = true →
    after[i]? = some b
  /-- Each is written with the moment of its turn, or stays as it was. -/
  lacking : ∀ {i : Nat} {b : Bookmark}, before[i]? = some b → b.isComplete = false →
    let turn := (before.take i).countP fun other => !other.isComplete
    let updated := b.filled (clock turn)
    (attempts[turn]? = some (updated, true) ∧ after[i]? = some updated) ∨
      (attempts[turn]? = some (updated, false) ∧ after[i]? = some b)
  /-- What is left to do is what failed. -/
  left : (after.filter fun b => !b.isComplete).map (·.locator) = unwritten attempts

/-- What is written when a store is opened once more is what could not be written before. -/
theorem IsMigration.again {later : Nat → Instant} {last : List Bookmark}
    {more : List (Bookmark × Bool)} (h : IsMigration clock before after attempts)
    (hagain : IsMigration later after last more) :
    more.map (·.1.locator) = unwritten attempts :=
  hagain.attempted.trans h.left

namespace Completes

theorem locators (h : Completes clock turn before after attempts) :
    after.map (·.locator) = before.map (·.locator) := by
  induction h with
  | nil => rfl
  | kept _ _ ih => simp [ih]
  | written _ _ ih => simp [ih, Bookmark.filled]
  | missed _ _ ih => simp [ih]

theorem attempted (h : Completes clock turn before after attempts) :
    attempts.map (·.1.locator) = (before.filter fun b => !b.isComplete).map (·.locator) := by
  induction h with
  | nil => rfl
  | kept hb _ ih => simp [ih, hb]
  | written hb _ ih => simp [ih, hb, Bookmark.filled]
  | missed hb _ ih => simp [ih, hb, Bookmark.filled]

theorem complete (h : Completes clock turn before after attempts) {i : Nat} {b : Bookmark}
    (hi : before[i]? = some b) (hb : b.isComplete = true) : after[i]? = some b := by
  induction h generalizing i with
  | nil => simp at hi
  | kept _ _ ih =>
      cases i with
      | zero => exact hi
      | succ i => exact ih hi
  | written hlacks _ ih =>
      cases i with
      | zero =>
          obtain rfl := Option.some.inj hi
          simp [hb] at hlacks
      | succ i => exact ih hi
  | missed hlacks _ ih =>
      cases i with
      | zero =>
          obtain rfl := Option.some.inj hi
          simp [hb] at hlacks
      | succ i => exact ih hi

theorem lacking (h : Completes clock turn before after attempts) {i : Nat} {b : Bookmark}
    (hi : before[i]? = some b) (hb : b.isComplete = false) :
    let place := (before.take i).countP fun other => !other.isComplete
    let updated := b.filled (clock (turn + place))
    (attempts[place]? = some (updated, true) ∧ after[i]? = some updated) ∨
      (attempts[place]? = some (updated, false) ∧ after[i]? = some b) := by
  induction h generalizing i with
  | nil => simp at hi
  | kept hcomplete _ ih =>
      cases i with
      | zero =>
          obtain rfl := Option.some.inj hi
          simp [hb] at hcomplete
      | succ i =>
          have hrest := ih hi
          simpa [List.take_succ_cons, List.countP_cons, hcomplete] using hrest
  | written hlacks _ ih =>
      cases i with
      | zero =>
          obtain rfl := Option.some.inj hi
          exact .inl ⟨rfl, rfl⟩
      | succ i =>
          have hrest := ih hi
          simpa [List.take_succ_cons, List.countP_cons, hlacks, Nat.add_assoc, Nat.add_comm 1]
            using hrest
  | missed hlacks _ ih =>
      cases i with
      | zero =>
          obtain rfl := Option.some.inj hi
          exact .inr ⟨rfl, rfl⟩
      | succ i =>
          have hrest := ih hi
          simpa [List.take_succ_cons, List.countP_cons, hlacks, Nat.add_assoc, Nat.add_comm 1]
            using hrest

theorem left (h : Completes clock turn before after attempts) :
    (after.filter fun b => !b.isComplete).map (·.locator) = unwritten attempts := by
  induction h with
  | nil => rfl
  | kept hb _ ih => simp [ih, hb]
  | written hb _ ih => simp [ih, Bookmark.isComplete_filled, unwritten]
  | missed hb _ ih => simp [ih, hb, Bookmark.filled, unwritten]

theorem isMigration (h : Completes clock 0 before after attempts) :
    IsMigration clock before after attempts where
  locators := h.locators
  attempted := h.attempted
  complete := h.complete
  lacking hi hb := by simpa only [Nat.zero_add] using h.lacking hi hb
  left := h.left

/-- What holds of bookmarks and is not lost with the times that they are given holds of them
afterwards. -/
theorem forall_mem {P : Bookmark → Prop} (h : Completes clock turn before after attempts)
    (hfilled : ∀ {b}, P b → ∀ now, P (b.filled now)) (hbefore : ∀ b ∈ before, P b) :
    ∀ b ∈ after, P b := by
  induction h with
  | nil => nofun
  | kept _ _ ih =>
      obtain ⟨hb, hrest⟩ := List.forall_mem_cons.mp hbefore
      exact List.forall_mem_cons.mpr ⟨hb, ih hrest⟩
  | written _ _ ih =>
      obtain ⟨hb, hrest⟩ := List.forall_mem_cons.mp hbefore
      exact List.forall_mem_cons.mpr ⟨hfilled hb _, ih hrest⟩
  | missed _ _ ih =>
      obtain ⟨hb, hrest⟩ := List.forall_mem_cons.mp hbefore
      exact List.forall_mem_cons.mpr ⟨hb, ih hrest⟩

end Completes

/-! ## On a map that is watched -/

section

variable {σ : Type} {IsSound : σ → Prop} {entries : σ → Entries Locator Bookmark}
  {Fits : Bookmark → Prop} {Expected : Bookmark → Bool → Prop} {w mid last : Watched σ Bookmark}
  {b : Bookmark} {key : Locator} {front rest : Entries Locator Bookmark}

/-- Whether a bookmark was made, and can be written once it has its times. -/
structure IsReady (Fits : Bookmark → Prop) (b : Bookmark) : Prop where
  made : b.checked = .ok b
  fits : ∀ now, Fits (b.filled now)

theorem IsReady.filled (hb : IsReady Fits b) (now : Instant) : IsReady Fits (b.filled now) :=
  ⟨Bookmark.checked_filled hb.made now, fun _ => hb.fits now⟩

/-- Whether the last entries of a map were completed, and those before them are as they were. -/
structure CompletesLast (IsSound : σ → Prop) (entries : σ → Entries Locator Bookmark)
    (Expected : Bookmark → Bool → Prop) (clock : Nat → Instant) (turn : Nat)
    (front rest : Entries Locator Bookmark) (w last : Watched σ Bookmark) : Prop where
  sound : IsSound last.map
  completed : ∃ back attempts, entries last.map = front ++ back ∧
    last.attempts = w.attempts ++ attempts ∧
    Completes clock turn rest.values back.values attempts ∧
    ∀ tried ∈ attempts, Expected tried.1 tried.2

namespace CompletesLast

theorem kept (hb : b.isComplete = true)
    (h : CompletesLast IsSound entries Expected clock turn (front ++ [(key, b)]) rest w last) :
    CompletesLast IsSound entries Expected clock turn front ((key, b) :: rest) w last := by
  obtain ⟨hsound, back, attempts, hback, hattempts, hcompletes, hexpected⟩ := h
  exact ⟨hsound, (key, b) :: back, attempts, by simp [hback], hattempts, .kept hb hcompletes,
    hexpected⟩

theorem written (hb : b.isComplete = false) (hexpected : Expected (b.filled (clock turn)) true)
    (hmid : mid.attempts = w.attempts ++ [(b.filled (clock turn), true)])
    (h : CompletesLast IsSound entries Expected clock (turn + 1)
      (front ++ [(key, b.filled (clock turn))]) rest mid last) :
    CompletesLast IsSound entries Expected clock turn front ((key, b) :: rest) w last := by
  obtain ⟨hsound, back, attempts, hback, hattempts, hcompletes, hall⟩ := h
  exact ⟨hsound, (key, b.filled (clock turn)) :: back, (b.filled (clock turn), true) :: attempts,
    by simp [hback], by simp [hattempts, hmid], .written hb hcompletes,
    List.forall_mem_cons.mpr ⟨hexpected, hall⟩⟩

theorem missed (hb : b.isComplete = false) (hexpected : Expected (b.filled (clock turn)) false)
    (hmid : mid.attempts = w.attempts ++ [(b.filled (clock turn), false)])
    (h : CompletesLast IsSound entries Expected clock (turn + 1) (front ++ [(key, b)]) rest mid
      last) :
    CompletesLast IsSound entries Expected clock turn front ((key, b) :: rest) w last := by
  obtain ⟨hsound, back, attempts, hback, hattempts, hcompletes, hall⟩ := h
  exact ⟨hsound, (key, b) :: back, (b.filled (clock turn), false) :: attempts, by simp [hback],
    by simp [hattempts, hmid], .missed hb hcompletes, List.forall_mem_cons.mpr ⟨hexpected, hall⟩⟩

end CompletesLast

variable [KeyedMap σ Locator Bookmark] (h : KeepsEntries IsSound entries Fits Expected)

include h

/-- A bookmark with its times is written as it is, or it is not; in neither case does the attempt
fail. -/
theorem outcome_add (hs : IsSound w.map) (hfits : Fits b) (hb : b.isComplete = true)
    (now : Instant) :
    (add now b).outcome.Ends w fun result after => IsSound after.map ∧
      ((result = .ok (.ok b) ∧ Expected b true ∧ after.attempts = w.attempts ++ [(b, true)] ∧
          entries after.map = (entries w.map).put b.locator b) ∨
        ∃ fault, result = .ok (.error fault) ∧ fault.isFileFault = true ∧ Expected b false ∧
          after.attempts = w.attempts ++ [(b, false)] ∧ entries after.map = entries w.map) := by
  obtain ⟨hcreated, hmodified⟩ := Bool.and_eq_true_iff.mp hb
  refine ends_outcome (ends_current_bind.mpr ?_)
  simp only [changed_eq_self hcreated hmodified]
  refine ends_settled_ok_bind.mpr (ends_bind (Watched.ends_add (h.add hs hfits)) ?_ ?_)
  · rintro u after ⟨⟨hafter, ⟨-, hexpected, hput⟩ | ⟨fault, hfault, -⟩⟩, hattempts⟩
    · exact ends_report_bind (ends_pure.mpr ⟨hafter, .inl ⟨rfl, hexpected, hattempts, hput⟩⟩)
    · cases hfault
  · rintro fault after ⟨⟨hafter, ⟨hok, -⟩ | ⟨_, ⟨⟩, hkind, hexpected, hsame⟩⟩, hattempts⟩
    · cases hok
    · exact ⟨hafter, .inr ⟨fault, rfl, hkind, hexpected, hattempts, hsame⟩⟩

theorem completeAll_completes (hs : IsSound w.map) (hentries : entries w.map = front ++ rest)
    (hready : ∀ b ∈ rest.values, IsReady Fits b) (turn : Nat) :
    (completeAll clock rest.values turn).Ends w fun result last => (∃ n, result = .ok n) ∧
      CompletesLast IsSound entries Expected clock turn front rest w last := by
  -- The entries in front are those that are done with; a write changes the one that follows them.
  induction rest generalizing w front turn with
  | nil =>
      exact ends_pure.mpr ⟨⟨0, rfl⟩, hs, [], [], hentries, (List.append_nil _).symm, .nil turn,
        by simp⟩
  | cons e rest ih =>
      obtain ⟨key, b⟩ := e
      obtain ⟨hb, hrest⟩ := List.forall_mem_cons.mp hready
      have hsound := h.sound hs
      rw [hentries] at hsound
      obtain rfl : b.locator = key := hsound.keyed (key, b) (by simp)
      change (completeAll clock (b :: Entries.values rest) turn).Ends w _
      rw [completeAll]
      split
      · next hcomplete =>
          have hplace : entries w.map = (front ++ [(b.locator, b)]) ++ rest := by simp [hentries]
          exact (ih hs hplace hrest turn).mono fun _ _ hends =>
            hends.imp_right fun hlast => hlast.kept hcomplete
      · next hincomplete =>
          have hlacks : b.isComplete = false := Bool.eq_false_iff.mpr hincomplete
          rw [Bookmark.completed_eq_filled hb.made]
          refine ends_settled_ok_bind.mpr
            (ends_bind (outcome_add h hs (hb.fits (clock turn)) rfl (clock turn)) ?_ ?_)
          · rintro _ mid ⟨hmid, ⟨⟨⟩, hexpected, htried, hput⟩ |
              ⟨fault, ⟨⟩, hkind, hexpected, htried, hsame⟩⟩
            · have hplace : entries mid.map =
                  (front ++ [(b.locator, b.filled (clock turn))]) ++ rest := by
                rw [hput, hentries]
                exact (Entries.put_of_split hsound.distinct _).trans (by simp)
              refine ends_bind (ih hmid hplace hrest (turn + 1)) ?_ ?_
              · rintro n last ⟨-, hlast⟩
                exact ends_pure.mpr ⟨⟨n + 1, rfl⟩, hlast.written hlacks hexpected htried⟩
              · rintro fault last ⟨⟨n, ⟨⟩⟩, -⟩
            · -- The failure is one of the files, so it is reported and the next one is tried.
              have hplace : entries mid.map = (front ++ [(b.locator, b)]) ++ rest := by
                simp [hsame, hentries]
              dsimp only
              rw [if_pos hkind]
              exact ends_report_bind ((ih hmid hplace hrest (turn + 1)).mono
                fun _ _ hends => hends.imp_right fun hlast =>
                  hlast.missed hlacks hexpected htried)
          · rintro fault after ⟨-, ⟨⟨⟩, -⟩ | ⟨_, ⟨⟩, -⟩⟩

theorem migrate_completes {s : σ} (hs : IsSound s) (hready : ∀ b ∈ all s, IsReady Fits b)
    (clock : Nat → Instant) :
    (migrate clock).Ends (⟨s, []⟩ : Watched σ Bookmark) fun result last => result = .ok () ∧
      IsSound last.map ∧ Completes clock 0 (all s) (all last.map) last.attempts ∧
      ∀ tried ∈ last.attempts, Expected tried.1 tried.2 := by
  have hall : ∀ s, all s = (entries s).values := h.values
  rw [hall] at hready
  have hcompleted : (completeAll clock (entries s).values 0).Ends (⟨s, []⟩ : Watched σ Bookmark)
      fun result last => (∃ n, result = .ok n) ∧
        CompletesLast IsSound entries Expected clock 0 [] (entries s) ⟨s, []⟩ last :=
    completeAll_completes h hs rfl hready 0
  rw [← hall] at hcompleted
  refine ends_current_bind.mpr (ends_bind hcompleted ?_ ?_)
  · rintro n last ⟨-, hsound, back, attempts, hback, hattempts, hcompletes, hexpected⟩
    obtain rfl : last.attempts = attempts := hattempts
    obtain rfl : entries last.map = back := hback
    rw [← hall, ← hall] at hcompletes
    split
    · exact ends_report.mpr ⟨rfl, hsound, hcompletes, hexpected⟩
    · exact ends_pure.mpr ⟨rfl, hsound, hcompletes, hexpected⟩
  · rintro fault last ⟨⟨n, ⟨⟩⟩, -⟩

end

/-! ## On the map itself -/

section

variable {σ : Type} [KeyedMap σ Locator Bookmark]

theorem shows_add (now : Instant) (b : Bookmark) :
    Watched.Shows (add now b : Operation (Watched σ Bookmark) Bookmark)
      (add now b : Operation σ Bookmark) := by
  refine Watched.shows_current_bind fun w => ?_
  refine Watched.shows_bind (Watched.shows_settled _) fun stored => ?_
  refine Watched.shows_bind (Watched.shows_add stored) fun _ => ?_
  exact Watched.shows_bind (Watched.shows_report _) fun _ => Watched.shows_pure stored

theorem shows_completeAll (clock : Nat → Instant) (bookmarks : List Bookmark) (turn : Nat) :
    Watched.Shows (completeAll clock bookmarks turn : Operation (Watched σ Bookmark) Nat)
      (completeAll clock bookmarks turn : Operation σ Nat) := by
  induction bookmarks generalizing turn with
  | nil => exact Watched.shows_pure 0
  | cons b rest ih =>
      rw [completeAll, completeAll]
      split
      · exact ih turn
      · refine Watched.shows_bind (Watched.shows_settled _) fun updated => ?_
        refine Watched.shows_bind (Watched.shows_outcome (shows_add _ _)) fun result => ?_
        cases result with
        | ok stored =>
            exact Watched.shows_bind (ih (turn + 1)) fun n => Watched.shows_pure (n + 1)
        | error fault =>
            dsimp only
            split
            · exact Watched.shows_bind (Watched.shows_report _) fun _ => ih (turn + 1)
            · exact fun _ _ => rfl

/-- A store is opened on a map in the same way whether the map is watched or not. -/
theorem shows_migrate (clock : Nat → Instant) :
    Watched.Shows (migrate clock : Operation (Watched σ Bookmark) Unit)
      (migrate clock : Operation σ Unit) := by
  refine Watched.shows_current_bind fun w => ?_
  refine Watched.shows_bind (shows_completeAll clock _ 0) fun migrated => ?_
  split
  · exact Watched.shows_report _
  · exact Watched.shows_pure ()

/-- The bookmarks that are to be written when a store is opened on a map, with their times, and
whether they are. -/
def attemptsOf (clock : Nat → Instant) (s : σ) : List (Bookmark × Bool) :=
  ((migrate clock).execute (⟨s, []⟩ : Watched σ Bookmark)).2.state.attempts

/-- The map after a store was opened on it. -/
def opened (clock : Nat → Instant) (s : σ) : σ := ((migrate clock).execute s).2.state

/-- Whether a store opens on a map, whatever fails: nothing is raised, and the bookmarks that lack a
time are written. -/
structure Opens (clock : Nat → Instant) (s : σ) : Prop where
  ends : ((migrate clock).execute s).1 = .ok ()
  /-- The map that is watched goes the same way. -/
  watched : ((migrate clock).execute (⟨s, []⟩ : Watched σ Bookmark)).2.state.map = opened clock s
  migrates : IsMigration clock (all s) (all (opened clock s)) (attemptsOf clock s)

variable {IsSound : σ → Prop} {entries : σ → Entries Locator Bookmark} {Fits : Bookmark → Prop}
  {Expected : Bookmark → Bool → Prop}

/-- A store opens on a map that is in order, and can be opened again on what comes out. -/
theorem opens (h : KeepsEntries IsSound entries Fits Expected) {s : σ} (hs : IsSound s)
    (hready : ∀ b ∈ all s, IsReady Fits b) (clock : Nat → Instant) :
    Opens clock s ∧ (∀ tried ∈ attemptsOf clock s, Expected tried.1 tried.2) ∧
      IsSound (opened clock s) ∧ ∀ b ∈ all (opened clock s), IsReady Fits b := by
  obtain ⟨hok, hsound, hcompletes, hexpected⟩ := (migrate_completes h hs hready clock).execute
  have hopened : (migrate clock).execute s = _ := shows_migrate clock ⟨s, []⟩ []
  refine ⟨⟨?_, ?_, ?_⟩, hexpected, ?_, ?_⟩ <;> simp only [opened, hopened]
  · exact hok
  · rfl
  · exact hcompletes.isMigration
  · exact hsound
  · exact hcompletes.forall_mem (fun hb now => hb.filled now) hready

end

open RecordDirectory

theorem isReady_of_recordText {b : Bookmark} (hmade : b.checked = .ok b) {text : String}
    (htext : recordText b = .ok text) :
    IsReady (fun b => ∃ text, recordText b = .ok text) b :=
  ⟨hmade, fun now => Bookmark.exists_recordText_filled htext now⟩

/-- Two pages without times, and between them one that has its times. -/
def agedPages : List Bookmark :=
  [samplePage "http://a.org/", (samplePage "http://b.org/").filled noon,
    samplePage "http://c.org/"]

def agedInMemory : MemoryMap Locator Bookmark :=
  { MemoryMap.ofValues agedPages with addRefused := fun l => l == ⟨"http://c.org/"⟩ }

def agedOnShelf : RecordDirectory Bookmark Locator :=
  ⟨{ sampleDisk with refusal? := refuseMoves }, .ofParts ["shelf"], "url",
    agedPages.map fun b => (b.locator, b)⟩

end Store

end LinkShelf
