import LinkShelf.Proofs.Bookmark.Decoding
import LinkShelf.Proofs.Storage.FallibleMap
import LinkShelf.Proofs.Store.Journal
import LinkShelf.Proofs.Store.Upkeep

/-!
The times that bookmarks lack when a store is opened. Main statements: all bookmarks have them once
the store is open, unless it was reported that some could not be written (`load_fills`), and that is
not reported where nothing is in the way of records (`load_of_isFree`).
-/

namespace LinkShelf

open Operation

/-- Whether no failure is among what was reported. -/
def IsUntroubled (events : List Event) : Prop := ∀ e ∈ events, e.level ≠ .error

theorem isUntroubled_nil : IsUntroubled [] := nofun

theorem isUntroubled_append {events more : List Event} :
    IsUntroubled (events ++ more) ↔ IsUntroubled events ∧ IsUntroubled more :=
  List.forall_mem_append

section

variable {σ α β : Type} {s : σ} {next : α → Operation σ β}

theorem yields_untroubled_bind {op : Operation σ α} {mid : Except Failure α → σ → Prop}
    (hop : op.Yields s fun result after added => mid result after ∧ IsUntroubled added)
    (hnext : ∀ {a after}, mid (.ok a) after →
      (next a).Yields after fun _ _ added => IsUntroubled added) :
    (op >>= next).Yields s fun _ _ added => IsUntroubled added := by
  refine yields_bind hop ?_ fun _ _ _ hends => hends.2
  rintro a after added ⟨hmid, huntroubled⟩
  exact (hnext hmid).mono fun _ _ _ hmore => isUntroubled_append.mpr ⟨huntroubled, hmore⟩

theorem yields_untroubled_report_bind {e : Event} {next : Unit → Operation σ β}
    (he : e.level ≠ .error) (hnext : (next ()).Yields s fun _ _ added => IsUntroubled added) :
    (report e >>= next).Yields s fun _ _ added => IsUntroubled added :=
  yields_report_bind (hnext.mono fun _ _ _ hmore => List.forall_mem_cons.mpr ⟨he, hmore⟩)

end

/-! ## Directories -/

namespace RecordDirectory

variable {V K : Type} [Record V K] [DecidableEq K] {d : Disk} {p : Path}

/-- Files that cannot be read are no failures. -/
theorem readAll_untroubled (names : List String) (entries : Entries K V) :
    (readAll p names entries).Yields d fun _ _ added => IsUntroubled added := by
  induction names generalizing entries with
  | nil => exact yields_pure isUntroubled_nil
  | cons name rest ih =>
      refine yields_current_bind.mpr ?_
      cases readRecord (V := V) d (p.child name) with
      | ok v =>
          dsimp only
          split
          · exact yields_untroubled_report_bind nofun (ih _)
          · exact ih _
      | error fault =>
          dsimp only
          split
          · exact yields_untroubled_report_bind nofun (ih _)
          · exact yields_throw isUntroubled_nil

theorem load_untroubled (p : Path) (keyName : String) :
    (load p keyName : Operation Disk (RecordDirectory V K)).Yields d fun _ _ added =>
      IsUntroubled added := by
  have hmade : (Disk.attempt (Disk.makeDirectories p)).Yields d fun _ _ added =>
      True ∧ IsUntroubled added := yields_stepped ⟨trivial, isUntroubled_nil⟩
  refine yields_untroubled_bind hmade fun _ => yields_current_bind.mpr ?_
  refine yields_untroubled_bind ((readAll_untroubled _ []).mono fun _ _ _ => .intro trivial) ?_
  intro entries after _
  refine yields_untroubled_report_bind nofun (yields_current_bind.mpr ?_)
  exact yields_pure isUntroubled_nil

theorem add_untroubled {r : RecordDirectory V K} (v : V) :
    (add v).Yields r fun _ _ added => IsUntroubled added := by
  refine yields_current_bind.mpr (yields_settled_bind ?_ fun _ _ => isUntroubled_nil)
  intro text _
  have hstored : ∀ f : Disk → Except FileFault Unit × Disk,
      (onDisk f).Yields r fun _ _ added => True ∧ IsUntroubled added :=
    fun f => yields_within (yields_stepped ⟨trivial, isUntroubled_nil⟩)
  refine yields_untroubled_bind (hstored _) fun _ => yields_change_bind.mpr ?_
  exact yields_report (List.forall_mem_singleton.mpr nofun)

end RecordDirectory

namespace Store

open RecordDirectory

/-! ## Bookmarks without their times -/

/-- Whether bookmarks of a kind as soon as they have their times, which a clock
gives. -/
structure IsFilled (E W : Bookmark → Prop) (clock : Nat → Instant) : Prop where
  completed : IsCompletable E W clock
  kept : ∀ {b}, W b → E b
  full : ∀ {b}, E b → b.created.isSome = true → b.modified.isSome = true → W b

section

variable {σ : Type} [KeyedMap σ Locator Bookmark] {IsSound : σ → Prop} {Same : σ → σ → Prop} {s : σ}
  {E W : Bookmark → Prop} {clock : Nat → Instant}
  (h : Reliable IsSound Same) (hquiet : IsQuiet σ) (hfilled : IsFilled E W clock)

/-- Whether all bookmarks are of a kind, and of another one unless they are still listed. -/
structure IsFilledUpTo (E W : Bookmark → Prop) (rest : List Bookmark) (s : σ) : Prop where
  held : ∀ {l b}, get s l = some b → E b
  filled : ∀ {l b}, get s l = some b → W b ∨ b ∈ rest
  listed : ∀ b ∈ rest, E b

theorem IsFilledUpTo.of_same {after : σ} {rest more : List Bookmark}
    (hrest : IsFilledUpTo E W rest s) (hsame : ∀ l, get after l = get s l)
    (hperm : rest.Perm more) : IsFilledUpTo E W more after where
  held hfound := hrest.held ((hsame _).symm.trans hfound)
  filled hfound := (hrest.filled ((hsame _).symm.trans hfound)).imp id hperm.mem_iff.mp
  listed b hb := hrest.listed b (hperm.mem_iff.mpr hb)

include h hfilled

/-- A bookmark that was stored with its times need not be listed any more. -/
theorem IsFilledUpTo.stored {after : σ} {b updated stored : Bookmark} {rest : List Bookmark}
    {turn : Nat} (hs : IsSound s) (hrest : IsFilledUpTo E W (b :: rest) s)
    (hupdated : completed (clock turn) b = .ok updated)
    (hchanged : changed updated (missingTimes updated (get s updated.locator) (clock turn)) =
      .ok stored)
    (hput : get after updated.locator = some stored)
    (hframe : ∀ l, l ≠ updated.locator → get after l = get s l) :
    IsFilledUpTo E W rest after := by
  have hb := hrest.listed b List.mem_cons_self
  have hlocator : updated.locator = b.locator := by
    rw [Bookmark.checked_eq_ok hupdated]
    rfl
  have hstored : W stored := hfilled.completed turn hb hupdated _ _
    (fun other hother => hrest.held hother) hchanged
  rw [hlocator] at hput hframe
  refine ⟨?_, ?_, fun other hother => hrest.listed other (List.mem_cons_of_mem b hother)⟩
  · intro l found hfound
    by_cases hl : l = b.locator
    · rw [hl, hput] at hfound
      cases hfound
      exact hfilled.kept hstored
    · exact hrest.held ((hframe l hl).symm.trans hfound)
  · intro l found hfound
    by_cases hl : l = b.locator
    · rw [hl, hput] at hfound
      cases hfound
      exact .inl hstored
    · have hbefore : get s l = some found := (hframe l hl).symm.trans hfound
      obtain hw | hmem := hrest.filled hbefore
      · exact .inl hw
      · obtain rfl | hmem := List.mem_cons.mp hmem
        · exact absurd (h.keyed hs hbefore).symm hl
        · exact .inr hmem

include hquiet

theorem add_fills (hs : IsSound s) {b updated : Bookmark} {rest : List Bookmark} {turn : Nat}
    (hrest : IsFilledUpTo E W (b :: rest) s) (hupdated : completed (clock turn) b = .ok updated) :
    (add (clock turn) updated).Yields s fun result after _ => IsSound after ∧
      ((∃ stored, result = .ok stored ∧ IsFilledUpTo E W rest after) ∨
        ∃ fault, result = .error fault ∧ ∀ l, get after l = get s l) := by
  refine ((add_tells h hquiet hs (clock turn) updated).and_ends
    (add_keeps h hs (clock turn) updated)).mono ?_
  rintro result after _
    ⟨⟨hafter, ⟨stored, hok, hchanged, hput, hframe⟩ | ⟨fault, hfault, hsame⟩⟩, -⟩
  · exact ⟨hafter, .inl ⟨stored, hok, hrest.stored h hfilled hs hupdated hchanged hput hframe⟩⟩
  · exact ⟨hafter, .inr ⟨fault, hfault, h.same hsame⟩⟩

/-- All bookmarks of a list get their times, unless it is reported that one could not be written. -/
theorem completeAll_fills {bookmarks missed : List Bookmark} (turn : Nat) (hs : IsSound s)
    (hbookmarks : IsFilledUpTo E W (bookmarks ++ missed) s) :
    (completeAll clock bookmarks turn).Yields s fun result after added =>
      (∃ n, result = .ok n) → IsUntroubled added → IsFilledUpTo E W missed after := by
  induction bookmarks generalizing s turn missed with
  | nil => exact yields_pure fun _ _ => hbookmarks
  | cons b rest ih =>
      rw [completeAll]
      split
      · next hfull =>
          obtain ⟨hcreated, hmodified⟩ := Bool.and_eq_true_iff.mp hfull
          refine ih turn hs ⟨hbookmarks.held, ?_, fun other hother =>
            hbookmarks.listed other (List.mem_cons_of_mem b hother)⟩
          intro l found hfound
          obtain hw | hmem := hbookmarks.filled hfound
          · exact .inl hw
          · obtain rfl | hmem := List.mem_cons.mp hmem
            · exact .inl (hfilled.full (hbookmarks.held hfound) hcreated hmodified)
            · exact .inr hmem
      · refine yields_settled_bind ?_ (by rintro fault _ ⟨n, ⟨⟩⟩)
        intro updated hupdated
        have hadded : (outcome (add (clock turn) updated)).Yields s fun result after _ =>
            ∃ added, result = .ok added ∧ IsSound after ∧
              ((∃ stored, added = .ok stored ∧ IsFilledUpTo E W (rest ++ missed) after) ∨
                ∃ fault, added = .error fault ∧ ∀ l, get after l = get s l) :=
          yields_outcome ((add_fills h hquiet hfilled hs hbookmarks hupdated).mono
            fun result _ _ hends => ⟨result, rfl, hends⟩)
        refine yields_bind hadded ?_ ?_
        · rintro _ after added ⟨_, ⟨⟩, hafter, ⟨stored, rfl, hrest⟩ | ⟨fault, rfl, hsame⟩⟩
          · refine yields_bind (ih (turn + 1) hafter hrest) ?_ (by rintro _ _ _ _ ⟨n, ⟨⟩⟩)
            intro n last more hlast
            refine yields_pure fun _ huntroubled => hlast ⟨n, rfl⟩ ?_
            exact (isUntroubled_append.mp (isUntroubled_append.mp huntroubled).2).1
          · dsimp only
            split
            · -- The failure is reported; the bookmark is among those that were missed.
              have hmissed : IsFilledUpTo E W (rest ++ b :: missed) after :=
                hbookmarks.of_same hsame List.perm_middle.symm
              refine yields_report_bind ((ih (turn + 1) hafter hmissed).mono ?_)
              intro result last more _ _ huntroubled
              exact (huntroubled _ (List.mem_append_right _ List.mem_cons_self) rfl).elim
            · exact yields_throw (by rintro ⟨n, ⟨⟩⟩)
        · rintro fault after added ⟨_, hok, -⟩
          cases hok

end

section

variable {E W : Bookmark → Prop} {clock : Nat → Instant} {p : Path} {d : Disk}
  {r : RecordDirectory Bookmark Locator}

/-- The bookmarks of an open directory have their times when it was gone through. -/
theorem migrate_fills (hfilled : IsFilled E W clock) (hr : IsSoundAt p r)
    (hheld : ∀ b ∈ all r, E b) :
    (migrate clock).Yields r fun result after added =>
      result = .ok () → IsUntroubled added → ∀ b ∈ all after, W b := by
  have hall : IsFilledUpTo E W (all r ++ []) r := by
    have hmem : ∀ {l b}, get r l = some b → b ∈ all r := fun hb =>
      List.mem_map.mpr ⟨_, Entries.mem_of_value?_eq_some hb, rfl⟩
    rw [List.append_nil]
    exact ⟨fun hb => hheld _ (hmem hb), fun hb => .inr (hmem hb), hheld⟩
  have hcompleted : (completeAll clock (all r) 0).Yields r fun result after added =>
      IsSoundAt p after ∧ ((∃ n, result = .ok n) → IsUntroubled added →
        IsFilledUpTo E W [] after) :=
    (completeAll_fills (reliable p) isQuiet_recordDirectory hfilled 0 hr hall).and_ends
      (completeAll_isSound (reliable p) hr clock (all r) 0)
  have hends : ∀ {after : RecordDirectory Bookmark Locator}, IsSoundAt p after →
      IsFilledUpTo E W [] after → ∀ b ∈ all after, W b := by
    intro after hafter hfull b hb
    obtain ⟨e, he, rfl⟩ := List.mem_map.mp hb
    have hget : get after e.1 = some e.2 :=
      (Entries.value?_eq_some_iff hafter.entries.distinct).mpr he
    exact (hfull.filled hget).resolve_right List.not_mem_nil
  refine yields_current_bind.mpr (yields_bind hcompleted ?_ fun _ _ _ _ hok => by cases hok)
  rintro migrated after added ⟨hafter, hfull⟩
  split
  · refine yields_report fun _ huntroubled => hends hafter (hfull ⟨migrated, rfl⟩ ?_)
    exact (isUntroubled_append.mp huntroubled).1
  · refine yields_pure fun _ huntroubled => hends hafter (hfull ⟨migrated, rfl⟩ ?_)
    exact (isUntroubled_append.mp huntroubled).1

theorem discipline_of_ofRecord (hkept : ∀ {b}, W b → E b)
    (hread : ∀ {record b}, Bookmark.ofRecord record = .ok b → E b) :
    Discipline (fun _ _ => True) E W where
  read _ hb := by
    obtain ⟨record, hrecord⟩ := exists_record_of_valueOfBytes hb
    exact hread hrecord
  written _ _ := trivial
  kept := hkept

/-- The bookmarks of a directory are of a kind if they are so wherever the directory is. -/
theorem forall_of_abides (h : ∀ l, ∃ k, Abides (fun _ _ => True) E l k r) : ∀ b ∈ all r, E b := by
  obtain ⟨k, hk⟩ := h []
  obtain ⟨m, hm⟩ := h k
  obtain rfl : m = k := Except.ok.inj (hm.lies.located.symm.trans hk.lies.located)
  intro b hb
  obtain ⟨e, he, rfl⟩ := List.mem_map.mp hb
  exact hm.entries rfl e he

/-- The bookmarks of a store that is opened are of the kind that records are read as. -/
theorem load_reads (hfilled : IsFilled E W clock)
    (hread : ∀ {record b}, Bookmark.ofRecord record = .ok b → E b)
    (hopened : ((load clock p).execute d).1 = .ok r) : ∀ b ∈ all r, E b :=
  forall_of_abides fun l => ((load_abides (discipline_of_ofRecord hfilled.kept hread)
    hfilled.completed (l := l) (fun _ _ _ _ => trivial) p).execute.2 r hopened).2

/-- A directory is opened as a store in two steps. -/
theorem yields_load
    {mid post : Except Failure (RecordDirectory Bookmark Locator) → Disk → List Event → Prop}
    (hopened : (RecordDirectory.load p "url").Yields d mid)
    (hmigrated : ∀ {directory made before}, mid (.ok directory) made before →
      (migrate clock).Yields directory fun result after added =>
        post (result.map fun _ => after) after.disk (before ++ added))
    (hfail : ∀ {fault made before}, mid (.error fault) made before →
      post (.error fault) made before) :
    (load clock p).Yields d post := by
  refine yields_bind hopened ?_ fun _ _ _ => hfail
  intro directory made before hmid
  have hends := (hmigrated hmid).execute
  rcases hrun : (migrate clock).execute directory with ⟨migrated, after, added⟩
  rw [hrun] at hends
  refine yields_change_bind.mpr (yields_forM_report_bind (yields_settled_bind ?_ ?_))
  · rintro u rfl
    refine yields_pure ?_
    rw [List.append_nil]
    exact hends
  · rintro fault rfl
    rw [List.append_nil]
    exact hends

theorem load_holds (hkept : ∀ {b}, W b → E b)
    (hread : ∀ {record b}, Bookmark.ofRecord record = .ok b → E b) :
    (RecordDirectory.load p "url").Ends d fun result _ =>
      ∀ directory : RecordDirectory Bookmark Locator,
        result = .ok directory → ∀ b ∈ all directory, E b :=
  fun events directory hdirectory => forall_of_abides fun l =>
    ((RecordDirectory.load_abides (discipline_of_ofRecord hkept hread) (l := l)
      (fun _ _ _ _ => trivial) p "url" events).2 directory hdirectory).2

/-- A store that was opened without a report of bookmarks that could not be written has only such as
have their times. -/
theorem load_fills (hfilled : IsFilled E W clock)
    (hread : ∀ {record b}, Bookmark.ofRecord record = .ok b → E b) :
    (load clock p).Yields d fun result _ added =>
      ∀ r, result = .ok r → IsUntroubled added → ∀ b ∈ all r, W b := by
  have hopened := (RecordDirectory.load_untroubled p "url").and_ends
    ((RecordDirectory.load_isSoundAt d p "url").and (load_holds hfilled.kept hread))
  refine yields_load hopened ?_ ?_
  · rintro directory made before ⟨⟨⟨hsound, -⟩, hheld⟩, -⟩
    refine (migrate_fills hfilled (hsound _ rfl) (hheld _ rfl)).mono ?_
    rintro result after added hfills r hok huntroubled
    obtain ⟨hresult, rfl⟩ : result = .ok () ∧ after = r := by
      cases result with
      | ok u => exact ⟨rfl, Except.ok.inj hok⟩
      | error fault => cases hok
    exact hfills hresult (isUntroubled_append.mp huntroubled).2
  · rintro fault made before - r hok
    cases hok

end

/-! ## Directories in which nothing is in the way -/

section

variable {r : RecordDirectory Bookmark Locator} {b : Bookmark} {l : Location}
  {clock : Nat → Instant}

theorem recordText_of_isDecoded (hb : b.IsDecoded) :
    (∃ text, recordText b = .ok text) ∨ recordText b = .error .oversizedInteger := by
  obtain ⟨set, hset⟩ := hb.tags
  obtain ⟨record, hrecord⟩ : ∃ record, b.toRecord = .ok record := by
    rw [Bookmark.toRecord, hset]
    exact ⟨_, rfl⟩
  have hencoded : Record.encode b = .ok record := hrecord
  rw [recordText, hencoded, ok_bind]
  split
  · exact .inr rfl
  · exact .inl ⟨_, rfl⟩

/-- Where nothing is in the way, a bookmark is stored unless its visit count has too many digits. -/
theorem add_of_isFree (h : IsFree r.path l r.disk) (now : Instant) (hb : b.IsDecoded)
    (hcreated : b.created.isSome = true) (hmodified : b.modified.isSome = true) :
    (add now b).Ends r fun result after =>
      ((∃ stored, result = .ok stored) ∧ IsFree after.path l after.disk) ∨
        result = .error .oversizedInteger := by
  have hadd : (RecordDirectory.add b).Ends r fun result after =>
      (result = .ok () ∧ IsFree after.path l after.disk) ∨ result = .error .oversizedInteger := by
    obtain ⟨text, htext⟩ | hfault := recordText_of_isDecoded hb
    · exact (RecordDirectory.add_of_isFree h htext).mono fun _ _ => .inl
    · exact (add_of_unwritable hfault).mono fun _ _ => .inr
  refine (add_of_isSome now hcreated hmodified hadd).mono ?_
  rintro result after (⟨rfl, ⟨-, hfree⟩ | hfault⟩ | ⟨fault, rfl, ⟨hok, -⟩ | hfault⟩)
  · exact .inl ⟨⟨b, rfl⟩, hfree⟩
  · cases hfault
  · cases hok
  · exact .inr (congrArg Except.error (Except.error.inj hfault))

theorem add_untroubled (now : Instant) (b : Bookmark) :
    (add now b).Yields r fun _ _ added => IsUntroubled added := by
  refine yields_current_bind.mpr (yields_settled_bind ?_ fun _ _ => isUntroubled_nil)
  intro stored _
  refine yields_untroubled_bind
    ((RecordDirectory.add_untroubled stored).mono fun _ _ _ => .intro trivial) fun _ => ?_
  exact yields_untroubled_report_bind nofun (yields_pure isUntroubled_nil)

theorem completeAll_of_isFree {bookmarks : List Bookmark}
    (hbookmarks : ∀ b ∈ bookmarks, b.IsDecoded) (h : IsFree r.path l r.disk) (turn : Nat) :
    (completeAll clock bookmarks turn).Yields r fun _ _ added => IsUntroubled added := by
  induction bookmarks generalizing r turn with
  | nil => exact yields_pure isUntroubled_nil
  | cons b rest ih =>
      obtain ⟨hb, hrest⟩ := List.forall_mem_cons.mp hbookmarks
      rw [completeAll]
      split
      · exact ih hrest h turn
      · refine yields_settled_bind ?_ fun _ _ => isUntroubled_nil
        intro updated hupdated
        have hwhole : updated.IsDecoded ∧ updated.created.isSome = true ∧
            updated.modified.isSome = true := by
          rw [Bookmark.checked_eq_ok hupdated]
          exact ⟨⟨hb.tags, hb.visitCount⟩, rfl, rfl⟩
        obtain ⟨hdecoded, hcreated, hmodified⟩ := hwhole
        have hadded : (outcome (add (clock turn) updated)).Yields r fun result after added =>
            (∃ ended, result = .ok ended ∧
              (((∃ stored, ended = .ok stored) ∧ IsFree after.path l after.disk) ∨
                ended = .error .oversizedInteger)) ∧ IsUntroubled added :=
          yields_outcome (((add_untroubled (clock turn) updated).and_ends
            (add_of_isFree h (clock turn) hdecoded hcreated hmodified)).mono
              fun result _ _ hends => ⟨⟨result, rfl, hends.1⟩, hends.2⟩)
        refine yields_untroubled_bind hadded ?_
        rintro _ after ⟨_, ⟨⟩, ⟨⟨stored, rfl⟩, hfree⟩ | rfl⟩
        · refine yields_untroubled_bind ((ih hrest hfree (turn + 1)).mono
            fun _ _ _ => .intro trivial) fun _ => ?_
          exact yields_pure isUntroubled_nil
        · exact yields_throw isUntroubled_nil

/-- Nothing that could not be written is reported when a store is opened where nothing is in the way
of records. -/
theorem load_of_isFree {p : Path} {d : Disk} (h : IsFree p l d) :
    (load clock p).Yields d fun _ _ added => IsUntroubled added := by
  have hopened := (RecordDirectory.load_untroubled p "url").and_ends
    ((RecordDirectory.load_ends ⟨h.located, h.directory⟩ "url").and
      (load_holds (fun hb => hb) Bookmark.isDecoded_of_ofRecord))
  refine yields_load hopened ?_ fun hmid => hmid.2
  rintro directory made before ⟨⟨⟨-, hopening⟩, hheld⟩, huntroubled⟩
  have hfree : IsFree directory.path l directory.disk := by
    obtain ⟨entries, hok, -⟩ | ⟨_, -, -, _, hfault, -⟩ := hopening
    · cases hok
      exact h
    · cases hfault
  have hmigrated : (migrate clock).Yields directory fun _ _ added => IsUntroubled added := by
    refine yields_current_bind.mpr (yields_untroubled_bind
      ((completeAll_of_isFree (hheld _ rfl) hfree 0).mono fun _ _ _ => .intro trivial) ?_)
    intro migrated after _
    split
    · exact yields_report (List.forall_mem_singleton.mpr nofun)
    · exact yields_pure isUntroubled_nil
  exact hmigrated.mono fun _ _ _ hmore => isUntroubled_append.mpr ⟨huntroubled, hmore⟩

end

end Store

end LinkShelf
