import LinkShelf.Proofs.Bookmark.Decoding
import LinkShelf.Proofs.Storage.FallibleMap
import LinkShelf.Proofs.Store.Durability
import LinkShelf.Proofs.Store.History

/-!
Stores on maps that are alike do alike (`add_alike` to `visitAt_alike`), as long as what is put into
them can be written: a directory refuses a bookmark whose visit count has too many digits
(`add_ends_oversized`), a map in memory does not (`add_ends_inMemory`).
-/

namespace LinkShelf

open Operation RecordDirectory

namespace Bookmark

variable {b : Bookmark}

theorem IsTextual.changed (hb : b.IsTextual) (existing : Option Bookmark) (now : Instant) :
    ∃ stored, Store.changed b (Store.missingTimes b existing now) = .ok stored ∧
      stored.IsTextual ∧ stored.visitCount = b.visitCount := by
  have htimes : ∀ created modified, ({ b with created, modified } : Bookmark).IsTextual :=
    fun _ _ => ⟨⟨hb.tags, hb.visitCount⟩, hb.title, hb.notes, hb.image, hb.color⟩
  have hchanged : ∃ stored, Store.changed b (Store.missingTimes b existing now) = .ok stored := by
    obtain ⟨locator, title, notes, image, tags, color, created, modified, lastVisited, count⟩ := b
    cases created with
    | some made =>
        cases modified with
        | some time => exact ⟨_, rfl⟩
        | none => exact ⟨_, (htimes _ _).checked⟩
    | none =>
        cases modified with
        | some time => exact ⟨_, (htimes _ _).checked⟩
        | none => exact ⟨_, (htimes _ _).checked⟩
  obtain ⟨stored, hstored⟩ := hchanged
  obtain rfl := Store.eq_of_changed hstored
  exact ⟨_, hstored, htimes _ _, rfl⟩

theorem IsTextual.visited (hb : b.IsTextual) (now : Instant) :
    ∃ after, b.visited now = .ok after ∧ after.IsTextual ∧
      after.visitCount = nextVisit b.visitCount := by
  have hcount : ∃ n : Nat, nextVisit b.visitCount = .int n := by
    obtain hnull | ⟨n, hn⟩ := hb.visitCount
    · exact ⟨1, by rw [hnull]; rfl⟩
    · refine ⟨n + 1, ?_⟩
      rw [hn, nextVisit]
      by_cases hzero : n = 0
      · simp [Json.isBlank, hzero]
      · simp [Json.isBlank, hzero]
  have hafter : ({ b with
      visitCount := nextVisit b.visitCount
      lastVisited := some now } : Bookmark).IsTextual :=
    ⟨⟨hb.tags, .inr hcount⟩, hb.title, hb.notes, hb.image, hb.color⟩
  exact ⟨_, hafter.checked, hafter, rfl⟩

/-- Whether a bookmark can be written. -/
structure IsWritable (b : Bookmark) : Prop extends b.IsTextual where
  count : b.visitCount.hasOversized = false

theorem IsWritable.exists_recordText (hb : b.IsWritable) : ∃ text, recordText b = .ok text :=
  hb.recordText_eq.2 hb.count

theorem locator_eq_of_same {other : Bookmark} (h : b.same other = true) :
    b.locator = other.locator := by
  simp only [same, Bool.and_eq_true, beq_iff_eq] at h
  exact h.1.1.1.1.1.1.1.1.1

end Bookmark

namespace Store

section

variable {σ τ : Type} [KeyedMap σ Locator Bookmark] [KeyedMap τ Locator Bookmark]
  {Rel : σ → τ → Prop} {s : σ} {t : τ} {b : Bookmark}
  (h : MapsAlike Bookmark.IsWritable Rel) (hrel : Rel s t)

include h hrel

theorem get_eq (l : Locator) : get s l = get t l := h.value? hrel l

theorem all_eq : all s = all t := h.values hrel

theorem add_alike (now : Instant) (hb : b.IsWritable) : Alike Rel (add now b) (add now b) s t := by
  refine alike_current_bind ?_
  rw [get_eq h hrel]
  refine alike_settled_bind hrel ?_
  intro stored hstored
  obtain ⟨other, hother, htextual, hcount⟩ := hb.changed (get t b.locator) now
  obtain rfl : stored = other := Except.ok.inj (hstored.symm.trans hother)
  have hwritable : stored.IsWritable := ⟨htextual, by rw [hcount, hb.count]⟩
  refine alike_bind (h.add hrel hwritable) ?_
  intro _ after otherAfter hafter
  refine alike_bind (alike_report hafter _) ?_
  intro _ last otherLast hlast
  exact alike_pure hlast stored

omit [KeyedMap σ Locator Bookmark] [KeyedMap τ Locator Bookmark] h in
theorem reportRemoved_alike (removed : Option Bookmark) :
    Alike Rel (reportRemoved removed) (reportRemoved removed) s t := by
  cases removed with
  | none => exact alike_pure hrel none
  | some b =>
      refine alike_bind (alike_report hrel _) ?_
      intro _ after otherAfter hafter
      exact alike_pure hafter (some b)

theorem remove_alike (l : Locator) : Alike Rel (remove l) (remove l) s t := by
  refine alike_bind (h.remove hrel l) ?_
  intro removed after otherAfter hafter
  exact reportRemoved_alike hafter removed

theorem removeSame_alike (b : Bookmark) : Alike Rel (removeSame b) (removeSame b) s t := by
  refine alike_bind (h.removeSame hrel b) ?_
  intro removed after otherAfter hafter
  exact reportRemoved_alike hafter removed

theorem replace_alike (now : Instant) (old : Locator) (hb : b.IsWritable) :
    Alike Rel (replace now old b) (replace now old b) s t := by
  refine alike_bind (add_alike h hrel now hb) ?_
  intro stored after otherAfter hafter
  by_cases hold : b.locator = old
  · simp only [hold, ne_eq, not_true_eq_false, if_false]
    exact alike_pure hafter stored
  · simp only [ne_eq, hold, not_false_eq_true, if_true]
    refine alike_bind (h.remove hafter old) ?_
    intro _ last otherLast hlast
    refine alike_bind (alike_report hlast _) ?_
    intro _ final otherFinal hfinal
    exact alike_pure hfinal stored

theorem visitAt_alike (visited stored : Instant) (l : Locator)
    (hcount : ∀ b, get t l = some b →
      (Bookmark.nextVisit b.visitCount).hasOversized = false) :
    Alike Rel (visitAt visited stored l) (visitAt visited stored l) s t := by
  refine alike_current_bind ?_
  rw [get_eq h hrel]
  cases hfound : get t l with
  | none => exact alike_pure hrel none
  | some b =>
      refine alike_settled_bind hrel ?_
      intro next hnext
      obtain ⟨other, hother, htextual, hnextCount⟩ := (h.fits hrel hfound).visited visited
      obtain rfl : next = other := Except.ok.inj (hnext.symm.trans hother)
      have hwritable : next.IsWritable := ⟨htextual, by rw [hnextCount, hcount b hfound]⟩
      refine alike_bind (add_alike h hrel stored hwritable) ?_
      intro kept after otherAfter hafter
      exact alike_pure hafter (some kept)

end

/-- A store on an empty directory is opened without bookmarks. -/
theorem load_of_empty {d made : Disk} {p : Path} {l : Location}
    (hmade : d.makeDirectories p = (.ok (), made)) (hlocated : made.locate p = .ok l)
    (hempty : made.files.names l = []) (clock : Nat → Instant) :
    (load clock p).Ends d fun result _ => result = .ok ⟨made, p, "url", []⟩ := by
  have hopens := RecordDirectory.load_of_empty (V := Bookmark) hmade hlocated hempty "url"
  refine ends_bind hopens ?_ nofun
  rintro _ _ ⟨hopened, -⟩
  cases hopened
  exact fun _ => rfl

/-! ## Visit counts of too many digits -/

section

variable {r : RecordDirectory Bookmark Locator} {b : Bookmark} {now : Instant}

/-- A directory refuses a bookmark whose count has too many digits. -/
theorem add_ends_oversized (hb : b.IsTextual) (hcount : b.visitCount.hasOversized = true) :
    (add now b).Ends r fun result _ => result = .error .oversizedInteger := by
  refine ends_current_bind.mpr ?_
  obtain ⟨stored, hstored, htextual, hstoredCount⟩ := hb.changed (get r b.locator) now
  have hrefused : recordText stored = .error .oversizedInteger := by
    apply htextual.recordText_eq.1
    rw [hstoredCount, hcount]
  simp only [hstored]
  exact ends_settled_ok_bind.mpr (ends_bind_of_error (add_of_unwritable hrefused))

theorem visitAt_ends_oversized {visited : Instant} {l : Locator} (hfound : get r l = some b)
    (hb : b.IsTextual) (hcount : (Bookmark.nextVisit b.visitCount).hasOversized = true) :
    (visitAt visited now l).Ends r fun result _ => result = .error .oversizedInteger := by
  obtain ⟨next, hnext, htextual, hnextCount⟩ := hb.visited visited
  refine ends_current_bind.mpr ?_
  simp only [hfound, hnext]
  refine ends_settled_ok_bind.mpr (ends_bind_of_error (add_ends_oversized htextual ?_))
  rw [hnextCount, hcount]

end

section

variable {m : FallibleMap Locator Bookmark} {b : Bookmark} {now : Instant}

/-- A map in memory does not, whether it fails or not. -/
theorem add_ends_inMemory (hb : b.IsTextual) :
    (add now b).Ends m fun result _ => result ≠ .error .oversizedInteger := by
  refine ends_current_bind.mpr ?_
  obtain ⟨stored, hstored, -⟩ := hb.changed (get m b.locator) now
  simp only [hstored]
  refine ends_settled_ok_bind.mpr (ends_bind_ne_error (FallibleMap.add_ne_oversized stored) ?_)
  intro _ after
  exact ends_report_bind (ends_pure.mpr nofun)

theorem replace_ends_inMemory (old : Locator) (hb : b.IsTextual) :
    (replace now old b).Ends m fun result _ => result ≠ .error .oversizedInteger := by
  refine ends_bind_ne_error (add_ends_inMemory hb) ?_
  intro stored after
  by_cases hold : b.locator = old
  · simp only [hold, ne_eq, not_true_eq_false, if_false]
    exact ends_pure.mpr nofun
  · simp only [ne_eq, hold, not_false_eq_true, if_true]
    refine ends_bind_ne_error (FallibleMap.remove_ne_oversized old) ?_
    intro _ last
    exact ends_report_bind (ends_pure.mpr nofun)

theorem visitAt_ends_inMemory {visited : Instant} {l : Locator} (hfound : get m l = some b)
    (hb : b.IsTextual) :
    (visitAt visited now l).Ends m fun result _ => result ≠ .error .oversizedInteger := by
  obtain ⟨next, hnext, htextual, -⟩ := hb.visited visited
  refine ends_current_bind.mpr ?_
  simp only [hfound, hnext]
  refine ends_settled_ok_bind.mpr (ends_bind_ne_error (add_ends_inMemory htextual) ?_)
  exact fun _ _ => ends_pure.mpr nofun

end

/-- Stores in a directory and in memory are not told apart, as long as what is put into them can be
written. -/
theorem mapsAlike (p : Path) (l : Location) : MapsAlike (V := Bookmark) Bookmark.IsWritable
    (Mimics (K := Locator) Bookmark.IsWritable p l) :=
  RecordDirectory.mapsAlike (fun _ hb => hb.exists_recordText)
    (fun _ _ => Bookmark.locator_eq_of_same) p l

end Store

end LinkShelf
