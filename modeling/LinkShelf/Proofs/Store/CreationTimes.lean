import LinkShelf.Proofs.Store.History

/-!
The times of bookmarks over whole histories. Main statement: as long as a page is not removed and no
other creation time is given for it, it keeps the time at which it was created, whatever is called
and whatever fails; and what is written has the modification time that was given, or the present one
(`creationTimes_kept`).
-/

namespace LinkShelf.Store

open RecordDirectory

section

variable {σ : Type} [KeyedMap σ Locator Bookmark] {IsSound : σ → Prop} {Same Refusing : σ → σ → Prop}
  {s last : σ} {p : Performed σ} {log : List (Performed σ)} {l : Locator} {c : Instant}

/-- Whether a locator has a bookmark that was created at a moment. -/
def WasCreated (s : σ) (l : Locator) (c : Instant) : Prop :=
  ∃ b, get s l = some b ∧ b.created = some c

/-- Whether a call leaves a creation time alone: it does not remove the bookmark, and writes no other
time. What a visit writes is not given by its caller. -/
structure Performed.Leaves (p : Performed σ) (l : Locator) (c : Instant) : Prop where
  removed : ¬p.Removed l
  given : p.call.isVisit = false → ∀ b stored, p.Wrote b stored → b.locator = l →
    ∀ t, b.created = some t → t = c

/-- Whether creation times are kept from a state on, and modification times are as they are given
or those of the clock. -/
structure KeepsTimes (Refusing : σ → σ → Prop) (s : σ) : Prop where
  created : ∀ {log last l c}, IsHistory Refusing s log last → WasCreated s l c →
    (∀ p ∈ log, p.Leaves l c) → ∀ p ∈ log, WasCreated p.after l c
  modified : ∀ {log last}, IsHistory Refusing s log last → ∀ p ∈ log, ∀ b stored, p.Wrote b stored →
    get p.after b.locator = some stored ∧ stored.modified = some (b.modified.getD p.now)

/-- A visit writes the creation time that was there. -/
theorem Performed.Leaves.created (h : Reliable IsSound Same) (hs : IsSound p.before)
    (hleaves : p.Leaves l c) (hcreated : WasCreated p.before l c) {b stored : Bookmark}
    (hwrote : p.Wrote b stored) (hl : b.locator = l) : b.created = none ∨ b.created = some c := by
  obtain ⟨s, call, clock, result, after⟩ := p
  obtain ⟨existing, hexisting, hc⟩ := hcreated
  cases call with
  | visit key =>
      obtain ⟨found, hfound, hvisited, -⟩ := hwrote
      obtain rfl := eq_of_visited hvisited
      obtain rfl : key = l := (h.keyed hs hfound).symm.trans hl
      cases hexisting.symm.trans hfound
      exact .inr hc
  | _ =>
      cases hgiven : b.created with
      | none => exact .inl rfl
      | some t => exact .inr (congrArg some (hleaves.given rfl b stored hwrote hl t hgiven))

theorem wasCreated_after (h : Reliable IsSound Same) (hs : IsSound p.before) (hrun : p.IsRun)
    (hleaves : p.Leaves l c) (hcreated : WasCreated p.before l c) : WasCreated p.after l c := by
  obtain ⟨-, hdone⟩ := Performed.doesAsAsked h hs hrun
  by_cases hwrote : ∃ b stored, p.Wrote b stored ∧ b.locator = l
  · obtain ⟨b, stored, hwrote, hl⟩ := hwrote
    obtain ⟨hchanged, hstored⟩ := hdone.wrote b stored hwrote
    have hgiven := hleaves.created h hs hcreated hwrote hl
    obtain ⟨existing, hexisting, hc⟩ := hcreated
    rw [hl] at hstored hchanged
    refine ⟨stored, hstored, ?_⟩
    rw [eq_of_changed hchanged, hexisting]
    obtain hnone | hsame := hgiven
    · simp [hnone, hc]
    · simp [hsame]
  · obtain ⟨existing, hexisting, hc⟩ := hcreated
    refine ⟨existing, (hdone.kept l ?_ hleaves.removed).trans hexisting, hc⟩
    exact fun b stored hb hl => hwrote ⟨b, stored, hb, hl⟩

theorem wasCreated_of_history (h : Reliable IsSound Same) (hharmless : IsHarmless IsSound Refusing)
    (hlog : IsHistory Refusing s log last) (hs : IsSound s) (hcreated : WasCreated s l c)
    (hleaves : ∀ p ∈ log, p.Leaves l c) : ∀ p ∈ log, WasCreated p.after l c := by
  induction hlog with
  | nil s => simp
  | @cons s last p rest hrefusing hrun _ ih =>
      obtain ⟨hfirst, hrest⟩ := List.forall_mem_cons.mp hleaves
      have hbefore := hharmless.sound hrefusing hs
      have hpresent : WasCreated p.before l c := by
        obtain ⟨b, hb, hc⟩ := hcreated
        exact ⟨b, (hharmless.same hrefusing l).trans hb, hc⟩
      have hafter := wasCreated_after h hbefore hrun hfirst hpresent
      exact List.forall_mem_cons.mpr
        ⟨hafter, ih (Performed.doesAsAsked h hbefore hrun).1 hafter hrest⟩

theorem modified_of_history (h : Reliable IsSound Same) (hharmless : IsHarmless IsSound Refusing)
    (hlog : IsHistory Refusing s log last) (hs : IsSound s) :
    ∀ p ∈ log, ∀ b stored, p.Wrote b stored →
      get p.after b.locator = some stored ∧ stored.modified = some (b.modified.getD p.now) := by
  induction hlog with
  | nil s => simp
  | cons hrefusing hrun _ ih =>
      obtain ⟨hafter, hdone⟩ := Performed.doesAsAsked h (hharmless.sound hrefusing hs) hrun
      refine List.forall_mem_cons.mpr ⟨?_, ih hafter⟩
      intro b stored hwrote
      obtain ⟨hchanged, hstored⟩ := hdone.wrote b stored hwrote
      exact ⟨hstored, by rw [eq_of_changed hchanged]⟩

theorem keepsTimes_of_reliable (h : Reliable IsSound Same) (hharmless : IsHarmless IsSound Refusing)
    (hs : IsSound s) : KeepsTimes Refusing s where
  created hlog hcreated hleaves := wasCreated_of_history h hharmless hlog hs hcreated hleaves
  modified hlog := modified_of_history h hharmless hlog hs

end

/-- Times are kept in every state that calls lead to, of a directory that was opened and of a map in
memory. -/
theorem creationTimes_kept :
    (∀ {clock : Nat → Instant} {p : Path} {d : Disk} {opened s : RecordDirectory Bookmark Locator}
      {earlier : List (Performed (RecordDirectory Bookmark Locator))},
      ((load clock p).execute d).1 = .ok opened → IsHistory DeviceRefuses opened earlier s →
      KeepsTimes DeviceRefuses s) ∧
    ∀ {m s : MemoryMap Locator Bookmark} {earlier : List (Performed (MemoryMap Locator Bookmark))},
      IsReachedInMemory m → IsHistory MapRefuses m earlier s → KeepsTimes MapRefuses s := by
  constructor
  · intro clock p d opened s earlier hopened hearlier
    exact keepsTimes_of_reliable (reliable p) (isHarmless_device p) (hearlier.isSoundAt hopened)
  · intro m s earlier hreached hearlier
    exact keepsTimes_of_reliable MemoryMap.reliable isHarmless_map
      (hearlier.isSound_inMemory hreached)

def midnight : Instant := ⟨63713520000000000, by decide⟩

/-- The store of one page that was added at noon. -/
def noonStore (opened : RecordDirectory Bookmark Locator) : RecordDirectory Bookmark Locator :=
  (Performed.ofCall opened (.add (samplePage "http://a.org/")) noon).after

theorem pageInMemory_isReached :
    IsReachedInMemory ((migrate fun _ => noon).execute pageInMemory).2.state :=
  .opened [samplePage "http://a.org/"] (fun _ => true) (fun _ => true) (fun _ => noon)
    (by decide +kernel)

/-- A page that is added again and visited at midnight was created at noon. -/
theorem creationTimes_kept_noonStore :
    (∃ opened, ((load (fun _ => noon) (.ofParts ["shelf"])).execute sampleDisk).1 = .ok opened ∧
      let again := Performed.ofCall (noonStore opened) (.add (samplePage "http://a.org/")) midnight
      let visited := Performed.ofCall again.after (.visit ⟨"http://a.org/"⟩) midnight
      WasCreated again.after ⟨"http://a.org/"⟩ noon ∧
        WasCreated visited.after ⟨"http://a.org/"⟩ noon) ∧
    KeepsTimes MapRefuses ((migrate fun _ => noon).execute pageInMemory).2.state := by
  obtain ⟨hdirectory, hmemory⟩ := creationTimes_kept
  have hrun : (((load (fun _ => noon) (.ofParts ["shelf"])).execute sampleDisk).1.toOption.map
      fun opened => (get (noonStore opened) ⟨"http://a.org/"⟩).map (·.created)) =
        some (some (some noon)) := by
    decide +kernel
  obtain ⟨opened, hopened, hpage⟩ := Option.map_eq_some_iff.mp hrun
  have hcreated : WasCreated (noonStore opened) ⟨"http://a.org/"⟩ noon :=
    Option.map_eq_some_iff.mp hpage
  constructor
  · have hkept : KeepsTimes DeviceRefuses (noonStore opened) :=
      hdirectory (toOption_eq_some.mp hopened) (.ofCall (deviceRefuses_refl opened) (.nil _))
    refine ⟨opened, toOption_eq_some.mp hopened, ?_⟩
    intro again visited
    have hlog : IsHistory DeviceRefuses (noonStore opened) [again, visited] visited.after :=
      .ofCall (deviceRefuses_refl _) (.ofCall (deviceRefuses_refl _) (.nil _))
    have hleaves : ∀ p ∈ [again, visited], p.Leaves ⟨"http://a.org/"⟩ noon := by
      refine List.forall_mem_cons.mpr ⟨⟨id, ?_⟩, List.forall_mem_cons.mpr ⟨⟨id, nofun⟩, by simp⟩⟩
      rintro - b stored ⟨rfl, -⟩ - t ht
      cases ht
    obtain ⟨hagain, hvisited⟩ := List.forall_mem_cons.mp (hkept.created hlog hcreated hleaves)
    exact ⟨hagain, hvisited visited List.mem_cons_self⟩
  · exact hmemory pageInMemory_isReached (.nil _)

end LinkShelf.Store
