import LinkShelf.Proofs.Bookmark.Codec
import LinkShelf.Proofs.Storage.Mirror
import LinkShelf.Store

/-!
The store on a record directory: every step keeps the directory a mirror of the bookmarks, each of
which is in normal form and has the times of its creation and of its last change.
-/

namespace LinkShelf

namespace Bookmark

variable {b : Bookmark} {now : Instant}

theorem IsCanonical.withTimes (hb : b.IsCanonical) {created modified : Option Instant}
    (hcreated : ∀ t, created = some t → t.IsRecordable)
    (hmodified : ∀ t, modified = some t → t.IsRecordable) :
    ({ b with created, modified } : Bookmark).IsCanonical :=
  ⟨hb.url, hb.title, hb.notes, hb.image, hb.tags, hb.color, hcreated, hmodified, hb.lastVisited,
    hb.visitCount⟩

theorem IsCanonical.visited (hb : b.IsCanonical) (hnow : now.IsRecordable) :
    ∃ after, b.visited now = .ok after ∧ after.IsCanonical ∧ after.locator = b.locator ∧
      after.created = b.created ∧ after.modified = b.modified := by
  have hcount : nextVisit b.visitCount = .null ∨ ∃ n : Nat, nextVisit b.visitCount = .int n := by
    rcases hb.visitCount with hcount | ⟨n, hcount⟩
    · exact .inr ⟨1, by rw [hcount]; rfl⟩
    · refine .inr ⟨n + 1, ?_⟩
      rw [hcount, nextVisit]
      by_cases hn : n = 0
      · simp [Json.isBlank, hn]
      · simp [Json.isBlank, hn]
  have hafter : ({ b with
      visitCount := nextVisit b.visitCount
      lastVisited := some now } : Bookmark).IsCanonical :=
    ⟨hb.url, hb.title, hb.notes, hb.image, hb.tags, hb.color, hb.created, hb.modified,
      fun t ht => Option.some.inj ht ▸ hnow, hcount⟩
  exact ⟨_, hafter.checked, hafter, rfl, rfl, rfl⟩

end Bookmark

namespace Store

open Operation RecordDirectory

/-- Whether a bookmark is as the store keeps it. -/
structure Keeps (used : Locator → Prop) (b : Bookmark) : Prop where
  canonical : b.IsCanonical
  created : b.created.isSome = true
  modified : b.modified.isSome = true
  used : used b.locator

variable {used : Locator → Prop}

/-- Bookmarks are read back from their files, and have different files if the digests of their
locators differ. -/
theorem faithful_keeps
    (hdigest : ∀ k l, used k → used l → Digest.ofText k.url = Digest.ofText l.url → k = l) :
    Faithful (Keeps used) where
  readBack hb htext := valueOfBytes_recordText hb.canonical htext
  apart hb hc hname := hdigest _ _ hb.used hc.used (fileName_inj.mp hname)

variable {b : Bookmark} {now : Instant} {r : RecordDirectory Bookmark Locator} {l : Location}

/-- The times that a bookmark lacks are those of the bookmark in its place, or now. -/
theorem changed_missingTimes (hb : b.IsCanonical) {existing : Option Bookmark}
    (hexisting : ∀ other t, existing = some other → other.created = some t → t.IsRecordable)
    (hnow : now.IsRecordable) :
    ∃ stored, changed b (missingTimes b existing now) = .ok stored ∧ stored.IsCanonical ∧
      stored.locator = b.locator ∧ stored.created.isSome = true ∧
      stored.modified.isSome = true := by
  have hinherited : ((existing.bind (·.created)).getD now).IsRecordable := by
    cases hother : existing with
    | none => exact hnow
    | some other =>
        cases hcreated : other.created with
        | none => simpa [hcreated] using hnow
        | some t => simpa [hcreated] using hexisting other t hother hcreated
  have hstored : ({ b with
      created := some (b.created.getD ((existing.bind (·.created)).getD now))
      modified := some (b.modified.getD now) } : Bookmark).IsCanonical := by
    refine hb.withTimes ?_ ?_
    · intro t ht
      cases hcreated : b.created with
      | none => rwa [← Option.some.inj ht, hcreated]
      | some own => exact hb.created t (by simpa [hcreated] using ht)
    · intro t ht
      cases hmodified : b.modified with
      | none => rwa [← Option.some.inj ht, hmodified]
      | some own => exact hb.modified t (by simpa [hmodified] using ht)
  refine ⟨_, ?_, hstored, rfl, rfl, rfl⟩
  have hchecked := hstored.checked
  obtain ⟨locator, title, notes, image, tags, color, created, modified, lastVisited, count⟩ := b
  cases created with
  | none =>
      cases modified with
      | none => exact hchecked
      | some time => exact hchecked
  | some made =>
      cases modified with
      | none => exact hchecked
      | some time => rfl

theorem changed_eq_self (hcreated : b.created.isSome = true) (hmodified : b.modified.isSome = true)
    (existing : Option Bookmark) : changed b (missingTimes b existing now) = .ok b := by
  obtain ⟨created, hcreated⟩ := Option.isSome_iff_exists.mp hcreated
  obtain ⟨modified, hmodified⟩ := Option.isSome_iff_exists.mp hmodified
  simp [changed, missingTimes, hcreated, hmodified]

/-- A bookmark stays where it is when its times are filled in. -/
theorem locator_of_changed {existing : Option Bookmark} {stored : Bookmark}
    (hstored : changed b (missingTimes b existing now) = .ok stored) :
    stored.locator = b.locator := by
  rw [changed] at hstored
  split at hstored
  · rw [← Except.ok.inj hstored]
  · rw [Bookmark.checked_eq_ok hstored, missingTimes]
    cases b.created <;> cases b.modified <;> rfl

theorem locator_of_visited {visited : Bookmark} (hvisited : b.visited now = .ok visited) :
    visited.locator = b.locator := by
  rw [Bookmark.checked_eq_ok hvisited]
  rfl

theorem ends_reportRemoved {σ : Type} {s : σ} {removed : Option Bookmark}
    {post : Except Failure (Option Bookmark) → σ → Prop} (hpost : post (.ok removed) s) :
    (reportRemoved removed).Ends s post := by
  cases removed with
  | none => exact ends_pure.mpr hpost
  | some b => exact ends_report_bind (ends_pure.mpr hpost)

/-! ## Changes -/

/-- A bookmark with both its times is added as it is. -/
theorem add_of_isSome (now : Instant) (hcreated : b.created.isSome = true)
    (hmodified : b.modified.isSome = true)
    {mid : Except Failure Unit → RecordDirectory Bookmark Locator → Prop}
    (hadd : (RecordDirectory.add b).Ends r mid) :
    (add now b).Ends r fun result after => (result = .ok b ∧ mid (.ok ()) after) ∨
      ∃ fault, result = .error fault ∧ mid (.error fault) after := by
  refine ends_current_bind.mpr ?_
  simp only [changed_eq_self hcreated hmodified]
  refine ends_settled_ok_bind.mpr (ends_bind hadd ?_ ?_)
  · exact fun u after hafter => ends_report_bind (ends_pure.mpr (.inl ⟨rfl, hafter⟩))
  · exact fun fault after hafter => .inr ⟨fault, rfl, hafter⟩

section

variable (hfaithful : Faithful (Keeps used)) (h : Mirrors (Keeps used) l r)

include hfaithful h

/-- A bookmark is added in normal form and with its times, or nothing is. -/
theorem add_spec (hb : b.IsCanonical) (hused : used b.locator) (hnow : now.IsRecordable) :
    (add now b).Ends r fun result after => Mirrors (Keeps used) l after ∧ after.path = r.path ∧
      ((∃ stored, result = .ok stored ∧ Keeps used stored ∧ stored.locator = b.locator ∧
          after.entries = r.entries.put b.locator stored) ∨
        ∃ fault, result = .error fault ∧ after.entries = r.entries) := by
  have hexisting : ∀ other t, get r b.locator = some other → other.created = some t →
      t.IsRecordable := fun other t hother ht =>
    (h.recorded _ (Entries.mem_of_value?_eq_some hother)).kind.canonical.created t ht
  obtain ⟨stored, hstored, hcanonical, hlocator, hcreated, hmodified⟩ :=
    changed_missingTimes hb hexisting hnow
  have hkeeps : Keeps used stored := ⟨hcanonical, hcreated, hmodified, hlocator ▸ hused⟩
  have hkey : Keyed.key stored = b.locator := hlocator
  have hadd := RecordDirectory.add_spec hfaithful h hkeeps
  rw [hkey] at hadd
  refine ends_current_bind.mpr ?_
  simp only [hstored]
  refine ends_settled_ok_bind.mpr (ends_bind hadd ?_ ?_)
  · rintro u after ⟨hmirrors, hpath, ⟨-, hentries⟩ | ⟨fault, hresult, -⟩⟩
    · exact ends_report_bind (ends_pure.mpr
        ⟨hmirrors, hpath, .inl ⟨stored, rfl, hkeeps, hlocator, hentries⟩⟩)
    · cases hresult
  · rintro fault after ⟨hmirrors, hpath, ⟨hresult, -⟩ | ⟨other, -, hentries⟩⟩
    · cases hresult
    · exact ⟨hmirrors, hpath, .inr ⟨fault, rfl, hentries⟩⟩

theorem remove_spec (key : Locator) :
    (remove key).Ends r
      (Changes (Keeps used) l r (r.entries.drop key) (r.entries.value? key)) := by
  refine ends_bind (RecordDirectory.remove_spec hfaithful h key) ?_ ?_
  · intro removed after hafter
    exact ends_reportRemoved hafter
  · intro fault after hafter
    exact hafter

theorem removeSame_spec (b : Bookmark) :
    (removeSame b).Ends r
      (Changes (Keeps used) l r ((keyOfSame? r.entries b).elim r.entries r.entries.drop)
        ((keyOfSame? r.entries b).bind r.entries.value?)) := by
  refine ends_bind (RecordDirectory.removeSame_spec hfaithful h b) ?_ ?_
  · intro removed after hafter
    exact ends_reportRemoved hafter
  · intro fault after hafter
    exact hafter

theorem replace_mirrors (old : Locator) (hb : b.IsCanonical) (hused : used b.locator)
    (hnow : now.IsRecordable) :
    (replace now old b).Ends r fun _ after => Mirrors (Keeps used) l after ∧
      after.path = r.path := by
  refine ends_bind (add_spec hfaithful h hb hused hnow) ?_ ?_
  · rintro stored after ⟨hmirrors, hpath, -⟩
    by_cases hold : b.locator = old
    · simp only [hold, ne_eq, not_true_eq_false, if_false]
      exact ends_pure.mpr ⟨hmirrors, hpath⟩
    · simp only [ne_eq, hold, not_false_eq_true, if_true]
      refine ends_bind (RecordDirectory.remove_spec hfaithful hmirrors old) ?_ ?_
      · rintro removed last ⟨hlast, hlastPath, -⟩
        exact ends_report_bind (ends_pure.mpr ⟨hlast, hlastPath.trans hpath⟩)
      · rintro fault last ⟨hlast, hlastPath, -⟩
        exact ⟨hlast, hlastPath.trans hpath⟩
  · rintro fault after ⟨hmirrors, hpath, -⟩
    exact ⟨hmirrors, hpath⟩

theorem visit_mirrors (key : Locator) (hnow : now.IsRecordable) :
    (visit now key).Ends r fun _ after => Mirrors (Keeps used) l after ∧ after.path = r.path := by
  refine ends_current_bind.mpr ?_
  cases hb : get r key with
  | none => exact ends_pure.mpr ⟨h, rfl⟩
  | some b =>
      have hkeeps := (h.recorded _ (Entries.mem_of_value?_eq_some hb)).kind
      obtain ⟨visited, hvisited, hcanonical, hlocator, -⟩ := hkeeps.canonical.visited hnow
      simp only [hvisited]
      refine ends_settled_ok_bind.mpr
        (ends_bind (add_spec hfaithful h hcanonical (hlocator ▸ hkeeps.used) hnow) ?_ ?_)
      · rintro stored after ⟨hmirrors, hpath, -⟩
        exact ends_pure.mpr ⟨hmirrors, hpath⟩
      · rintro fault after ⟨hmirrors, hpath, -⟩
        exact ⟨hmirrors, hpath⟩

end

/-! ## Opening -/

/-- Nothing is filled in where no time is missing. -/
theorem ends_completeAll (clock : Nat → Instant) {bookmarks : List Bookmark} {turn : Nat}
    (hbookmarks : ∀ b ∈ bookmarks, b.created.isSome = true ∧ b.modified.isSome = true) :
    (completeAll clock bookmarks turn).Ends r fun result after => result = .ok 0 ∧ after = r := by
  induction bookmarks with
  | nil => exact ends_pure.mpr ⟨rfl, rfl⟩
  | cons b rest ih =>
      obtain ⟨hcreated, hmodified⟩ := hbookmarks b (by simp)
      simp only [completeAll, hcreated, hmodified, Bool.and_self, if_true]
      exact ih fun other hother => hbookmarks other (by simp [hother])

theorem ends_migrate (clock : Nat → Instant)
    (hbookmarks : ∀ b ∈ all r, b.created.isSome = true ∧ b.modified.isSome = true) :
    (migrate clock).Ends r fun result after => result = .ok () ∧ after = r := by
  refine ends_current_bind.mpr (ends_bind (ends_completeAll clock hbookmarks) ?_ ?_)
  · rintro n after ⟨hn, rfl⟩
    cases hn
    exact ends_pure.mpr ⟨rfl, rfl⟩
  · rintro fault after ⟨hfault, -⟩
    cases hfault

/-- Opening the directory of a mirror gives a mirror with the same entries. -/
theorem load_spec (hfaithful : Faithful (Keeps used)) (h : Mirrors (Keeps used) l r)
    (clock : Nat → Instant) :
    (load clock r.path).Ends r.disk fun result after => after = r.disk ∧
      ∃ entries, entries.Perm r.entries ∧ result = .ok ⟨r.disk, r.path, "url", entries⟩ := by
  refine ends_bind (RecordDirectory.load_spec hfaithful h "url") ?_ ?_
  · rintro opened after ⟨rfl, entries, hperm, hopened⟩
    cases hopened
    have hall : ∀ b ∈ all (⟨r.disk, r.path, "url", entries⟩ : RecordDirectory Bookmark Locator),
        b.created.isSome = true ∧ b.modified.isSome = true := by
      intro b hb
      obtain ⟨e, he, rfl⟩ := List.mem_map.mp hb
      have hkept := (h.recorded e (hperm.mem_iff.mp he)).kind
      exact ⟨hkept.created, hkept.modified⟩
    obtain ⟨hmigrated, hafter⟩ := (ends_migrate clock hall).execute
    rcases hrun : (migrate clock).execute
      (⟨r.disk, r.path, "url", entries⟩ : RecordDirectory Bookmark Locator) with
      ⟨migrated, after, events⟩
    rw [hrun] at hmigrated hafter
    cases hmigrated
    cases hafter
    exact ends_change_bind.mpr (ends_forM_report_bind (ends_settled_ok_bind.mpr
      (ends_pure.mpr ⟨rfl, entries, hperm, rfl⟩)))
  · rintro fault after ⟨rfl, entries, -, hresult⟩
    cases hresult

end Store

end LinkShelf
