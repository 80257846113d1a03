import LinkShelf.Proofs.Storage.Reliable
import LinkShelf.Proofs.Store.Durability

/-!
Operations that fail. Main statement: in every store that operations lead to, on a record directory
or in memory, an operation that fails leaves everything as it was, or, where the removal of a
`replace` fails, as it was after its `add` (`losesNothing`).
-/

namespace LinkShelf.Store

open Operation RecordDirectory

variable {σ : Type} [KeyedMap σ Locator Bookmark] {IsSound : σ → Prop} {Same : σ → σ → Prop} {s : σ}

/-! ## Single operations -/

section

variable (h : Reliable IsSound Same) (hs : IsSound s)

include h hs

theorem add_keeps (now : Instant) (b : Bookmark) :
    (add now b).Ends s fun result after => IsSound after ∧
      ((∃ stored, result = .ok stored ∧
          changed b (missingTimes b (get s b.locator) now) = .ok stored ∧
          get after b.locator = some stored ∧ ∀ l, l ≠ b.locator → get after l = get s l) ∨
        ∃ fault, result = .error fault ∧ Same s after) := by
  refine ends_current_bind.mpr (ends_settled_bind ?_ ?_)
  · intro stored hstored
    have hkey : Keyed.key stored = b.locator := locator_of_changed hstored
    refine ends_bind (h.add hs) ?_ ?_
    · rintro u after ⟨hafter, ⟨-, hput⟩ | ⟨fault, hfault, -⟩⟩
      · rw [IsPut, hkey] at hput
        refine ends_report_bind (ends_pure.mpr ⟨hafter, .inl ⟨stored, rfl, hstored, ?_, ?_⟩⟩)
        · exact (hput b.locator).trans (if_pos rfl)
        · exact fun l hl => (hput l).trans (if_neg hl)
      · cases hfault
    · rintro fault after ⟨hafter, ⟨hok, -⟩ | ⟨other, -, hsame⟩⟩
      · cases hok
      · exact ⟨hafter, .inr ⟨fault, rfl, hsame⟩⟩
  · intro fault _
    exact ⟨hs, .inr ⟨fault, rfl, h.refl s⟩⟩

theorem remove_keeps (l : Locator) :
    (remove l).Ends s fun result after => IsSound after ∧
      ((result = .ok (get s l) ∧ get after l = none ∧ ∀ m, m ≠ l → get after m = get s m) ∨
        ∃ fault, result = .error fault ∧ Same s after) := by
  refine ends_bind (h.remove hs) ?_ ?_
  · rintro removed after ⟨hafter, ⟨hok, htaken⟩ | ⟨fault, hfault, -⟩⟩
    · cases hok
      refine ends_reportRemoved ⟨hafter, .inl ⟨rfl, ?_, ?_⟩⟩
      · exact (htaken l).trans (if_pos rfl)
      · exact fun m hm => (htaken m).trans (if_neg hm)
    · cases hfault
  · rintro fault after ⟨hafter, ⟨hok, -⟩ | ⟨other, -, hsame⟩⟩
    · cases hok
    · exact ⟨hafter, .inr ⟨fault, rfl, hsame⟩⟩

theorem removeSame_keeps (b : Bookmark) :
    (removeSame b).Ends s fun result after => IsSound after ∧
      ((result = .ok none ∧ ∀ m, get after m = get s m) ∨
        (∃ found, result = .ok (some found) ∧ get s found.locator = some found ∧
          get after found.locator = none ∧ ∀ m, m ≠ found.locator → get after m = get s m) ∨
        ∃ fault, result = .error fault ∧ Same s after) := by
  refine ends_bind (h.removeSame hs) ?_ ?_
  · rintro removed after ⟨hafter, ⟨hok, rfl⟩ | ⟨found, hok, hfound, htaken⟩ | ⟨fault, hfault, -⟩⟩
    · cases hok
      exact ends_reportRemoved ⟨hafter, .inl ⟨rfl, fun _ => rfl⟩⟩
    · cases hok
      refine ends_reportRemoved ⟨hafter, .inr (.inl ⟨found, rfl, hfound, ?_, ?_⟩)⟩
      · exact (htaken found.locator).trans (if_pos rfl)
      · exact fun m hm => (htaken m).trans (if_neg hm)
    · cases hfault
  · rintro fault after ⟨hafter, ⟨hok, -⟩ | ⟨found, hok, -⟩ | ⟨other, -, hsame⟩⟩
    · cases hok
    · cases hok
    · exact ⟨hafter, .inr (.inr ⟨fault, rfl, hsame⟩)⟩

theorem visit_keeps (now : Instant) (l : Locator) :
    (visit now l).Ends s fun result after => IsSound after ∧
      ((∃ visited, result = .ok visited ∧ get after l = visited ∧
          ∀ m, m ≠ l → get after m = get s m) ∨
        ∃ fault, result = .error fault ∧ Same s after) := by
  refine ends_current_bind.mpr ?_
  cases hb : get s l with
  | none => exact ends_pure.mpr ⟨hs, .inl ⟨none, rfl, hb, fun _ _ => rfl⟩⟩
  | some b =>
      refine ends_settled_bind ?_ ?_
      · intro visited hvisited
        have hlocator : visited.locator = l := (locator_of_visited hvisited).trans (h.keyed hs hb)
        refine ends_bind (add_keeps h hs now visited) ?_ ?_
        · rintro stored after ⟨hafter, ⟨other, hok, -, hput, hframe⟩ | ⟨fault, hfault, -⟩⟩
          · cases hok
            rw [hlocator] at hput hframe
            exact ends_pure.mpr ⟨hafter, .inl ⟨some stored, rfl, hput, hframe⟩⟩
          · cases hfault
        · rintro fault after ⟨hafter, ⟨other, hok, -⟩ | ⟨other, -, hsame⟩⟩
          · cases hok
          · exact ⟨hafter, .inr ⟨fault, rfl, hsame⟩⟩
      · intro fault _
        exact ⟨hs, .inr ⟨fault, rfl, h.refl s⟩⟩

/-- A `replace` fails as its `add` does, or in its removal, and then it leaves what its `add` led
to; or it succeeds. -/
theorem replace_keeps (now : Instant) (old : Locator) (b : Bookmark) (events : List Event) :
    let added := add now b ⟨s, events⟩
    let replaced := replace now old b ⟨s, events⟩
    IsSound replaced.2.state ∧
      ((∃ fault, added.1 = .error fault ∧ replaced.1 = .error fault ∧ Same s replaced.2.state) ∨
        (∃ stored fault, added.1 = .ok stored ∧ replaced.1 = .error fault ∧ b.locator ≠ old ∧
          Same added.2.state replaced.2.state ∧ get replaced.2.state b.locator = some stored ∧
          get replaced.2.state old = get s old ∧
          ∀ l, l ≠ b.locator → get replaced.2.state l = get s l) ∨
        ∃ stored, added.1 = .ok stored ∧ replaced.1 = .ok stored ∧
          get replaced.2.state b.locator = some stored ∧
          (b.locator ≠ old → get replaced.2.state old = none) ∧
          ∀ l, l ≠ b.locator → l ≠ old → get replaced.2.state l = get s l) := by
  intro added replaced
  have hadded := add_keeps h hs now b events
  rcases hadd : add now b ⟨s, events⟩ with ⟨result, mid, more⟩
  simp only [added, replaced, hadd] at hadded ⊢
  obtain ⟨hmid, ⟨stored, rfl, -, hput, hframe⟩ | ⟨fault, rfl, hsame⟩⟩ := hadded
  · rw [replace, bind_apply_of_ok hadd]
    by_cases hold : b.locator = old
    · simp only [hold, ne_eq, not_true_eq_false, if_false]
      rw [hold] at hput hframe
      exact ⟨hmid, .inr (.inr ⟨stored, rfl, rfl, hput, False.elim, fun l hl _ => hframe l hl⟩)⟩
    · simp only [ne_eq, hold, not_false_eq_true, if_true]
      have hremoved := (h.remove hmid : (KeyedMap.remove old).Ends mid _) more
      rcases hremove : (KeyedMap.remove old : Operation σ (Option Bookmark)) ⟨mid, more⟩ with
        ⟨result, left, last⟩
      rw [hremove] at hremoved
      obtain ⟨hleft, ⟨rfl, htaken⟩ | ⟨fault, rfl, hsame⟩⟩ := hremoved
      · rw [bind_apply_of_ok hremove]
        refine ⟨hleft, .inr (.inr ⟨stored, rfl, rfl, ?_, ?_, ?_⟩)⟩
        · exact ((htaken b.locator).trans (if_neg hold)).trans hput
        · exact fun _ => (htaken old).trans (if_pos rfl)
        · exact fun l hl hlo => ((htaken l).trans (if_neg hlo)).trans (hframe l hl)
      · rw [bind_apply_of_error hremove]
        have hget : ∀ l, get left l = get mid l := fun l => h.same hsame l
        refine ⟨hleft, .inr (.inl ⟨stored, fault, rfl, rfl, trivial, hsame, ?_, ?_, ?_⟩)⟩
        · exact (hget b.locator).trans hput
        · exact (hget old).trans (hframe old (Ne.symm hold))
        · exact fun l hl => (hget l).trans (hframe l hl)
  · rw [replace, bind_apply_of_error hadd]
    exact ⟨hmid, .inl ⟨fault, rfl, rfl, hsame⟩⟩

/-! ## Reachable states -/

/-- The state after a step. A map is not opened again by itself. -/
def Step.next (now : Instant) (s : σ) : Step → σ
  | .add b => ((Store.add now b).execute s).2.state
  | .remove l => ((Store.remove l).execute s).2.state
  | .removeSame b => ((Store.removeSame b).execute s).2.state
  | .replace old b => ((Store.replace now old b).execute s).2.state
  | .visit l => ((Store.visit now l).execute s).2.state
  | .reopen => s

theorem next_isSound (now : Instant) (step : Step) : IsSound (step.next now s) := by
  cases step with
  | add b => exact (add_keeps h hs now b).execute.1
  | remove l => exact (remove_keeps h hs l).execute.1
  | removeSame b => exact (removeSame_keeps h hs b).execute.1
  | replace old b => exact (replace_keeps h hs now old b []).1
  | visit l => exact (visit_keeps h hs now l).execute.1
  | reopen => exact hs

omit hs in
theorem completeAll_isSound (hs : IsSound s) (clock : Nat → Instant) (bookmarks : List Bookmark)
    (turn : Nat) :
    (completeAll clock bookmarks turn).Ends s fun _ after => IsSound after := by
  induction bookmarks generalizing s turn with
  | nil => exact ends_pure.mpr hs
  | cons b rest ih =>
      rw [completeAll]
      split
      · exact ih hs turn
      · refine ends_settled_bind ?_ fun _ _ => hs
        intro updated _
        have hadded : (Operation.outcome (add (clock turn) updated)).Ends s
            fun _ after => IsSound after :=
          ends_outcome ((add_keeps h hs (clock turn) updated).mono fun _ _ hends => hends.1)
        refine ends_bind hadded ?_ fun _ _ hafter => hafter
        intro result after hafter
        cases result with
        | ok stored =>
            refine ends_bind (ih hafter (turn + 1)) ?_ fun _ _ hlast => hlast
            exact fun n last hlast => ends_pure.mpr hlast
        | error fault =>
            dsimp only
            split
            · exact ends_report_bind (ih hafter (turn + 1))
            · exact fun _ => hafter

theorem migrate_isSound (clock : Nat → Instant) :
    (migrate clock).Ends s fun _ after => IsSound after := by
  refine ends_current_bind.mpr (ends_bind (completeAll_isSound h hs clock _ 0) ?_
    fun _ _ hafter => hafter)
  intro migrated after hafter
  split
  · exact ends_report.mpr hafter
  · exact ends_pure.mpr hafter

end

section

variable {p : Path} {r : RecordDirectory Bookmark Locator}

theorem load_isSoundAt (clock : Nat → Instant) (p : Path) (d : Disk) :
    (load clock p).Ends d fun result after => (∀ opened, result = .ok opened → IsSoundAt p opened) ∧
      ((∃ l, LiesAt d p l) → ∃ l, LiesAt after p l) := by
  refine ends_bind (RecordDirectory.load_isSoundAt d p "url") ?_ ?_
  · rintro directory made ⟨hsound, -⟩
    have hmigrated := (migrate_isSound (reliable p) (hsound directory rfl) clock).execute
    rcases hrun : (migrate clock).execute directory with ⟨migrated, last, events⟩
    rw [hrun] at hmigrated
    refine ends_change_bind.mpr (ends_forM_report_bind (ends_settled_bind ?_ ?_))
    · intro _ _
      refine ends_pure.mpr ⟨?_, fun _ => hmigrated.lies⟩
      rintro opened hopened
      cases hopened
      exact hmigrated
    · intro fault _
      exact ⟨nofun, fun _ => hmigrated.lies⟩
  · rintro fault after ⟨-, hlies⟩
    exact ⟨nofun, hlies⟩

theorem after_isSoundAt (h : IsSoundAt p r) (turn : Turn) : IsSoundAt p (turn.after r) := by
  obtain ⟨step, clock, refusal?⟩ := turn
  have hrefusing := h.refusing refusal?
  have hnext := fun step => next_isSound (reliable p) hrefusing (clock 0) step
  cases step with
  | add b => exact hnext (.add b)
  | remove l => exact hnext (.remove l)
  | removeSame b => exact hnext (.removeSame b)
  | replace old b => exact hnext (.replace old b)
  | visit l => exact hnext (.visit l)
  | reopen =>
      have hload := (load_isSoundAt clock r.path { r.disk with refusal? }).execute
      rw [h.path] at hload
      simp only [Turn.after]
      rw [h.path]
      split
      · next opened left hrun =>
          rw [hrun] at hload
          exact hload.1 opened rfl
      · next fault left hrun =>
          rw [hrun] at hload
          exact ⟨rfl, hload.2 hrefusing.lies, h.entries⟩

theorem run_isSoundAt (h : IsSoundAt p r) (turns : List Turn) : IsSoundAt p (run turns r) := by
  induction turns generalizing r with
  | nil => exact h
  | cons turn rest ih => exact ih (after_isSoundAt h turn)

end

/-- The maps in memory that operations of a store lead to, while one change or another is
refused. -/
inductive IsReachedInMemory : MemoryMap Locator Bookmark → Prop where
  | opened (values : List Bookmark) (addRefused removeRefused : Locator → Bool)
      (clock : Nat → Instant)
      (hopened : ((migrate clock).execute
        { MemoryMap.ofValues values with addRefused, removeRefused }).1 = .ok ()) :
      IsReachedInMemory ((migrate clock).execute
        { MemoryMap.ofValues values with addRefused, removeRefused }).2.state
  | refused {m : MemoryMap Locator Bookmark} (h : IsReachedInMemory m)
      (addRefused removeRefused : Locator → Bool) :
      IsReachedInMemory { m with addRefused, removeRefused }
  | inserted {m : MemoryMap Locator Bookmark} (h : IsReachedInMemory m) (b : Bookmark) :
      IsReachedInMemory (m.insert b)
  | next {m : MemoryMap Locator Bookmark} (h : IsReachedInMemory m) (now : Instant) (step : Step) :
      IsReachedInMemory (step.next now m)

theorem IsReachedInMemory.isSound {m : MemoryMap Locator Bookmark} (h : IsReachedInMemory m) :
    m.entries.IsSound := by
  induction h with
  | opened values addRefused removeRefused clock _ =>
      have hvalues : ({ MemoryMap.ofValues values with addRefused, removeRefused } :
          MemoryMap Locator Bookmark).entries.IsSound := MemoryMap.isSound_ofValues values
      exact (migrate_isSound MemoryMap.reliable hvalues clock).execute
  | refused _ _ _ ih => exact ih
  | inserted _ b ih => exact ih.put b
  | next _ now step ih => exact next_isSound MemoryMap.reliable ih now step

/-! ## What is lost -/

/-- Whether no operation loses anything: one that fails leaves the state the same, except for a
`replace` whose removal fails, which leaves what its `add` led to; and one that succeeds leaves the
bookmarks of all other locators. -/
structure LosesNothing (Same : σ → σ → Prop) (s : σ) : Prop where
  add : ∀ now b, (Store.add now b).Ends s fun result after =>
    (∃ stored, result = .ok stored ∧
        changed b (missingTimes b (get s b.locator) now) = .ok stored ∧
        get after b.locator = some stored ∧ ∀ l, l ≠ b.locator → get after l = get s l) ∨
      ∃ fault, result = .error fault ∧ Same s after
  visit : ∀ now l, (Store.visit now l).Ends s fun result after =>
    (∃ visited, result = .ok visited ∧ get after l = visited ∧
        ∀ m, m ≠ l → get after m = get s m) ∨
      ∃ fault, result = .error fault ∧ Same s after
  remove : ∀ l, (Store.remove l).Ends s fun result after =>
    (result = .ok (get s l) ∧ get after l = none ∧ ∀ m, m ≠ l → get after m = get s m) ∨
      ∃ fault, result = .error fault ∧ Same s after
  removeSame : ∀ b, (Store.removeSame b).Ends s fun result after =>
    (result = .ok none ∧ ∀ m, get after m = get s m) ∨
      (∃ found, result = .ok (some found) ∧ get s found.locator = some found ∧
        get after found.locator = none ∧ ∀ m, m ≠ found.locator → get after m = get s m) ∨
      ∃ fault, result = .error fault ∧ Same s after
  replace : ∀ now old b events,
    let added := Store.add now b ⟨s, events⟩
    let replaced := Store.replace now old b ⟨s, events⟩
    (∃ fault, added.1 = .error fault ∧ replaced.1 = .error fault ∧ Same s replaced.2.state) ∨
      (∃ stored fault, added.1 = .ok stored ∧ replaced.1 = .error fault ∧ b.locator ≠ old ∧
        Same added.2.state replaced.2.state ∧ get replaced.2.state b.locator = some stored ∧
        get replaced.2.state old = get s old ∧
        ∀ l, l ≠ b.locator → get replaced.2.state l = get s l) ∨
      ∃ stored, added.1 = .ok stored ∧ replaced.1 = .ok stored ∧
        get replaced.2.state b.locator = some stored ∧
        (b.locator ≠ old → get replaced.2.state old = none) ∧
        ∀ l, l ≠ b.locator → l ≠ old → get replaced.2.state l = get s l

theorem losesNothing_of_reliable (h : Reliable IsSound Same) (hs : IsSound s) :
    LosesNothing Same s where
  add now b := (add_keeps h hs now b).mono fun _ _ hends => hends.2
  visit now l := (visit_keeps h hs now l).mono fun _ _ hends => hends.2
  remove l := (remove_keeps h hs l).mono fun _ _ hends => hends.2
  removeSame b := (removeSame_keeps h hs b).mono fun _ _ hends => hends.2
  replace now old b events := (replace_keeps h hs now old b events).2

/-- No operation loses anything, on a directory that was opened or on a map in memory, after any
operations and whichever of their changes failed. -/
theorem losesNothing :
    (∀ {clock : Nat → Instant} {p : Path} {d : Disk} {opened : RecordDirectory Bookmark Locator},
      ((load clock p).execute d).1 = .ok opened → ∀ turns refusal?,
        let r := run turns opened
        LosesNothing Untouched { r with disk := { r.disk with refusal? } }) ∧
    ∀ {m : MemoryMap Locator Bookmark}, IsReachedInMemory m →
      LosesNothing (fun m after => after = m) m := by
  constructor
  · intro clock p d opened hopened turns refusal? r
    have hsound := (load_isSoundAt clock p d).execute.1 opened hopened
    exact losesNothing_of_reliable (reliable p) ((run_isSoundAt hsound turns).refusing refusal?)
  · intro m hreached
    exact losesNothing_of_reliable MemoryMap.reliable hreached.isSound

def refuseRemovals : FileStep → Option String
  | .unlink _ => some "read-only file system"
  | _ => none

/-- The store of one page, on a device that lets no file be removed. -/
def lockedStore (opened : RecordDirectory Bookmark Locator) : RecordDirectory Bookmark Locator :=
  let r := run [⟨.add (samplePage "http://a.org/"), fun _ => noon, fun _ => none⟩] opened
  { r with disk := { r.disk with refusal? := refuseRemovals } }

def pageInMemory : MemoryMap Locator Bookmark :=
  { MemoryMap.ofValues [samplePage "http://a.org/"] with
    addRefused := fun _ => true
    removeRefused := fun _ => true }

/-- A page whose removal fails is still there, next to the one that was to take its place. -/
theorem losesNothing_lockedStore :
    (∃ opened, ((load (fun _ => noon) (.ofParts ["shelf"])).execute sampleDisk).1 = .ok opened ∧
      ∃ fault after, (replace noon ⟨"http://a.org/"⟩ (samplePage "http://b.org/")).execute
          (lockedStore opened) = (.error fault, after) ∧
        (get after.state ⟨"http://b.org/"⟩).isSome = true ∧
        get after.state ⟨"http://a.org/"⟩ = get (lockedStore opened) ⟨"http://a.org/"⟩) ∧
    LosesNothing (fun m after => after = m)
      ((migrate fun _ => noon).execute pageInMemory).2.state := by
  obtain ⟨hdirectory, hmemory⟩ := losesNothing
  constructor
  · have hrun : (((load (fun _ => noon) (.ofParts ["shelf"])).execute sampleDisk).1.toOption.map
        fun opened =>
          let locked := lockedStore opened
          (((add noon (samplePage "http://b.org/")).execute locked).1.toOption.isSome,
            ((replace noon ⟨"http://a.org/"⟩ (samplePage "http://b.org/")).execute
              locked).1.toOption.isSome)) = some (true, false) := by
      decide +kernel
    obtain ⟨opened, hopened, houtcomes⟩ := Option.map_eq_some_iff.mp hrun
    rw [toOption_eq_some] at hopened
    obtain ⟨hadded, hreplaced⟩ := Prod.mk.inj houtcomes
    have hloses : LosesNothing Untouched (lockedStore opened) := hdirectory hopened _ _
    refine ⟨opened, hopened, ?_⟩
    generalize lockedStore opened = locked at hadded hreplaced hloses ⊢
    have hpage : (samplePage "http://b.org/").locator = ⟨"http://b.org/"⟩ := rfl
    have hcases := hloses.replace noon ⟨"http://a.org/"⟩ (samplePage "http://b.org/") []
    rw [execute] at hadded hreplaced ⊢
    generalize add noon (samplePage "http://b.org/") ⟨locked, []⟩ = added at hcases hadded
    generalize replace noon ⟨"http://a.org/"⟩ (samplePage "http://b.org/") ⟨locked, []⟩ = replaced
      at hcases hreplaced ⊢
    rcases hcases with ⟨fault, hfault, -⟩ | ⟨stored, fault, -, hfault, -, -, hnew, hold, -⟩ |
      ⟨stored, -, hok, -⟩
    · rw [hfault] at hadded
      cases hadded
    · rw [hpage] at hnew
      exact ⟨fault, replaced.2, Prod.ext hfault rfl, Option.isSome_iff_exists.mpr ⟨stored, hnew⟩,
        hold⟩
    · rw [hok] at hreplaced
      cases hreplaced
  · exact hmemory (.opened [samplePage "http://a.org/"] (fun _ => true) (fun _ => true)
      (fun _ => noon) (by decide +kernel))

end LinkShelf.Store
