import LinkShelf.Proofs.Storage.NamedFiles
import LinkShelf.Proofs.Store.Steps

/-!
Shelves: directories of bookmarks with their times, each in the file of its own locator. Main
statements: opening a shelf changes nothing and gives the bookmarks of its files, whatever the clock
says (`exists_load`), and a bookmark that is added is written to its own file (`add_of_stored`).
-/

namespace LinkShelf.Store

open Operation RecordDirectory

variable {used : Locator → Prop} {d : Disk} {p : Path} {l : Location}
  {r : RecordDirectory Bookmark Locator}

/-- Where no time is missing, the store is the directory as it was read. -/
theorem load_of_read {events : List Event}
    (hread : (RecordDirectory.load p "url").execute d = (.ok r, ⟨r.disk, events⟩))
    (hall : ∀ b ∈ all r, b.created.isSome = true ∧ b.modified.isSome = true)
    (clock : Nat → Instant) :
    ((load clock p).execute d).1 = .ok r ∧ ((load clock p).execute d).2.state = r.disk := by
  obtain ⟨hmigrated, hkept⟩ := (ends_migrate clock hall).execute
  rw [show (load clock p).execute d = _ from bind_apply_of_ok hread]
  rcases hrun : (migrate clock).execute r with ⟨migrated, kept, reported⟩
  rw [hrun] at hmigrated hkept
  dsimp only at hmigrated hkept
  subst hmigrated hkept
  refine (?_ : Ends _ kept.disk fun result last => result = .ok kept ∧ last = kept.disk) events
  exact ends_change_bind.mpr (ends_forM_report_bind (ends_settled_ok_bind.mpr
    (ends_pure.mpr ⟨rfl, rfl⟩)))

/-- A directory is opened as it is if its record files hold bookmarks with their times, or are
skipped. -/
theorem exists_load_of_dated (hlies : LiesAt d p l)
    (hhandled : ∀ name ∈ recordNames d p, IsHandled Bookmark d p name)
    (hdated : ∀ f ∈ records Bookmark d p,
      f.2.created.isSome = true ∧ f.2.modified.isSome = true) :
    ∃ r : RecordDirectory Bookmark Locator, r.path = p ∧ r.disk = d ∧
      (∀ key, get r key = lastHeld? (records Bookmark d p) key) ∧
      ∀ clock, ((load clock p).execute d).1 = .ok r ∧ ((load clock p).execute d).2.state = d := by
  obtain ⟨hafter, hends⟩ := (RecordDirectory.load_ends (V := Bookmark) hlies "url").execute
  rcases hread : (RecordDirectory.load p "url" : Operation Disk
    (RecordDirectory Bookmark Locator)).execute d with ⟨result, after, events⟩
  rw [hread] at hafter hends
  dsimp only at hafter hends
  subst hafter
  obtain ⟨entries, rfl, -, hdistinct, hvalues⟩ | ⟨name, hname, hunhandled, -⟩ := hends
  · have hall : ∀ b ∈ Entries.values entries,
        b.created.isSome = true ∧ b.modified.isSome = true := by
      intro b hb
      obtain ⟨e, he, rfl⟩ := List.mem_map.mp hb
      have hvalue := (Entries.value?_eq_some_iff hdistinct).mpr he
      rw [hvalues, lastHeld?_eq_some (inOrder_records after p)] at hvalue
      obtain ⟨name, hmem, -⟩ := hvalue
      exact hdated _ hmem
    exact ⟨⟨after, p, "url", entries⟩, rfl, rfl, hvalues, load_of_read hread hall⟩
  · exact absurd (hhandled name hname) hunhandled

theorem exists_load (hlies : LiesAt d p l) (h : HoldsNamed (Keeps used) p d) :
    ∃ r : RecordDirectory Bookmark Locator, r.path = p ∧ r.disk = d ∧
      (∀ key, get r key = lastHeld? (records Bookmark d p) key) ∧
      ∀ clock, ((load clock p).execute d).1 = .ok r ∧ ((load clock p).execute d).2.state = d := by
  refine exists_load_of_dated hlies h.handled fun f hf => ?_
  have hkept := (h.of_mem_records hf).2
  exact ⟨hkept.created, hkept.modified⟩

variable {b stored : Bookmark} {now : Instant} {text : String}

theorem add_of_stored (hlies : LiesAt r.disk r.path l)
    (hchanged : changed b (missingTimes b (get r b.locator) now) = .ok stored)
    (htext : recordText stored = .ok text)
    (hstore : (r.disk.store r.path (fileName stored.url) temporaryName text.toUTF8).1 = .ok ()) :
    (add now b).Ends r fun result after => result = .ok stored ∧ LiesAt after.disk r.path l ∧
      Rewritten r.path (nameOf Bookmark stored.locator) (some text.toUTF8) r.disk after.disk := by
  refine ends_current_bind.mpr ?_
  simp only [hchanged]
  refine ends_settled_ok_bind.mpr
    (ends_bind (RecordDirectory.add_of_stored hlies htext hstore) ?_ ?_)
  · rintro u after ⟨-, hplace, hfiles⟩
    exact ends_report_bind (ends_pure.mpr ⟨rfl, hplace, hfiles⟩)
  · rintro fault after ⟨hfault, -⟩
    cases hfault

end LinkShelf.Store
