import LinkShelf.Proofs.Store.Failures

/-!
Histories of stores: calls one after the other, with the moments that the clock gives during each and
with changes that are refused or not. Main statement: what a call does under one locator
(`Performed.doesAsAsked`). It puts the bookmark there that it writes, or takes one away, or leaves
what there was, whether it fails or not.
-/

namespace LinkShelf.Store

open Operation RecordDirectory

/-- What clients ask of a store. -/
inductive Call where
  | add (b : Bookmark)
  | remove (l : Locator)
  | removeSame (b : Bookmark)
  | replace (old : Locator) (b : Bookmark)
  | visit (l : Locator)
  | get (l : Locator)

section

variable {σ : Type} [KeyedMap σ Locator Bookmark]

/-- The operation of a call, with the moments that the clock gives during it. -/
def Call.perform (clock : Nat → Instant) : Call → Operation σ (Option Bookmark)
  | .add b => do return some (← Store.add (clock 0) b)
  | .remove l => Store.remove l
  | .removeSame b => Store.removeSame b
  | .replace old b => do return some (← Store.replace (clock 0) old b)
  | .visit l => visitAt (clock 0) (clock 1) l
  | .get l => do return Store.get (← Operation.current) l

/-- The moment at which a call stores a bookmark. -/
def Call.storedAt (clock : Nat → Instant) : Call → Instant
  | .visit _ => clock 1
  | _ => clock 0

/-- Whether a call is a visit. -/
def Call.isVisit : Call → Bool
  | .visit _ => true
  | _ => false

end

/-- A call that was made of a store in one state and left it in another one. -/
structure Performed (σ : Type) where
  before : σ
  call : Call
  clock : Nat → Instant
  result : Except Failure (Option Bookmark)
  after : σ

namespace Performed

variable {σ : Type} [KeyedMap σ Locator Bookmark]

/-- Whether the result and the state after a call are those of its operation. -/
def IsRun (p : Performed σ) : Prop :=
  ∃ events, (p.call.perform p.clock).execute p.before = (p.result, ⟨p.after, events⟩)

/-- A call made of a store while the clock stands still. -/
def ofCall (s : σ) (call : Call) (now : Instant) : Performed σ :=
  let done := (call.perform fun _ => now).execute s
  ⟨s, call, fun _ => now, done.1, done.2.state⟩

def now (p : Performed σ) : Instant := p.call.storedAt p.clock

/-- Whether a call wrote a bookmark, and as what it was stored. A `replace` whose removal failed did,
and a visit writes the bookmark after one more visit. -/
def Wrote (p : Performed σ) (b stored : Bookmark) : Prop :=
  match p.call with
  | .add given => given = b ∧ p.result = .ok (some stored)
  | .replace _ given => given = b ∧ ((Store.add p.now given).execute p.before).1 = .ok stored
  | .visit l => ∃ found, Store.get p.before l = some found ∧ found.visited (p.clock 0) = .ok b ∧
      p.result = .ok (some stored)
  | _ => False

/-- Whether a call took away what was under a locator. -/
def Removed (p : Performed σ) (l : Locator) : Prop :=
  match p.call with
  | .remove key => key = l ∧ ∃ b, p.result = .ok (some b)
  | .removeSame _ => ∃ b, p.result = .ok (some b) ∧ b.locator = l
  | .replace old b => old = l ∧ b.locator ≠ l ∧ ∃ stored, p.result = .ok stored
  | _ => False

/-- Whether a call did what was asked of it and nothing else: what it wrote is stored with its times
filled in, and a locator that it neither wrote to nor took a bookmark from has what it had. -/
structure DoesAsAsked (p : Performed σ) : Prop where
  wrote : ∀ b stored, p.Wrote b stored →
    changed b (missingTimes b (Store.get p.before b.locator) p.now) = .ok stored ∧
      Store.get p.after b.locator = some stored
  kept : ∀ l, (∀ b stored, p.Wrote b stored → b.locator ≠ l) → ¬p.Removed l →
    Store.get p.after l = Store.get p.before l

theorem doesAsAsked_of_same {p : Performed σ}
    (hsame : ∀ l, Store.get p.after l = Store.get p.before l)
    (hwrote : ∀ b stored, ¬p.Wrote b stored) : p.DoesAsAsked :=
  ⟨fun b stored h => absurd h (hwrote b stored), fun l _ _ => hsame l⟩

end Performed

/-! ## Single calls -/

theorem execute_bind_pure {σ α β : Type} {op : Operation σ α} (f : α → β) (s : σ) :
    (op >>= fun a => pure (f a)).execute s = ((op.execute s).1.map f, (op.execute s).2) := by
  rcases hrun : op.execute s with ⟨result, after⟩
  cases result with
  | ok a => exact bind_apply_of_ok hrun
  | error fault => exact bind_apply_of_error hrun

/-- What is stored is the bookmark with its times filled in. -/
theorem eq_of_changed {b stored : Bookmark} {existing : Option Bookmark} {now : Instant}
    (hstored : changed b (missingTimes b existing now) = .ok stored) :
    stored = { b with
      created := some (b.created.getD ((existing.bind (·.created)).getD now))
      modified := some (b.modified.getD now) } := by
  obtain ⟨locator, title, notes, image, tags, color, created, modified, lastVisited, count⟩ := b
  cases created with
  | some made =>
      cases modified with
      | some time =>
          cases hstored
          rfl
      | none => exact Bookmark.checked_eq_ok hstored
  | none => cases modified <;> exact Bookmark.checked_eq_ok hstored

theorem eq_of_visited {b visited : Bookmark} {now : Instant} (hvisited : b.visited now = .ok visited) :
    visited = { b with
      visitCount := Bookmark.nextVisit b.visitCount
      lastVisited := some now } :=
  Bookmark.checked_eq_ok hvisited

section

variable {σ : Type} [KeyedMap σ Locator Bookmark] {IsSound : σ → Prop} {Same : σ → σ → Prop} {s : σ}
  (h : Reliable IsSound Same) (hs : IsSound s)

include h hs

theorem visitAt_keeps (visited stored : Instant) (l : Locator) :
    (visitAt visited stored l).Ends s fun result after => IsSound after ∧
      ((get s l = none ∧ result = .ok none ∧ after = s) ∨
        (∃ found b kept, get s l = some found ∧ found.visited visited = .ok b ∧ b.locator = l ∧
          result = .ok (some kept) ∧
          changed b (missingTimes b (get s b.locator) stored) = .ok kept ∧
          get after l = some kept ∧ ∀ m, m ≠ l → get after m = get s m) ∨
        ∃ fault, result = .error fault ∧ Same s after) := by
  refine ends_current_bind.mpr ?_
  cases hfound : get s l with
  | none => exact ends_pure.mpr ⟨hs, .inl ⟨rfl, rfl, rfl⟩⟩
  | some found =>
      refine ends_settled_bind ?_ ?_
      · intro b hb
        have hlocator : b.locator = l := (locator_of_visited hb).trans (h.keyed hs hfound)
        refine ends_bind (add_keeps h hs stored b) ?_ ?_
        · rintro kept after ⟨hafter, ⟨other, hok, hchanged, hput, hframe⟩ | ⟨fault, hfault, -⟩⟩
          · cases hok
            rw [hlocator] at hput hframe
            exact ends_pure.mpr ⟨hafter,
              .inr (.inl ⟨found, b, kept, rfl, hb, hlocator, rfl, hchanged, hput, hframe⟩)⟩
          · cases hfault
        · rintro fault after ⟨hafter, ⟨other, hok, -⟩ | ⟨other, -, hsame⟩⟩
          · cases hok
          · exact ⟨hafter, .inr (.inr ⟨fault, rfl, hsame⟩)⟩
      · intro fault _
        exact ⟨hs, .inr (.inr ⟨fault, rfl, h.refl s⟩)⟩

variable (clock : Nat → Instant)

theorem perform_add_ends (given : Bookmark) :
    ((Call.add given).perform clock).Ends s fun result after => IsSound after ∧
      (⟨s, .add given, clock, result, after⟩ : Performed σ).DoesAsAsked := by
  refine ends_bind (add_keeps h hs (clock 0) given) ?_ ?_
  · rintro stored after ⟨hafter, ⟨_, hok, hchanged, hput, hframe⟩ | ⟨fault, hfault, -⟩⟩
    · cases hok
      refine ends_pure.mpr ⟨hafter, ?_, ?_⟩
      · rintro b kept ⟨rfl, hkept⟩
        cases hkept
        exact ⟨hchanged, hput⟩
      · intro l hwrote _
        exact hframe l (hwrote given stored ⟨rfl, rfl⟩).symm
    · cases hfault
  · rintro fault after ⟨hafter, ⟨_, hok, -⟩ | ⟨_, -, hsame⟩⟩
    · cases hok
    · refine ⟨hafter, Performed.doesAsAsked_of_same (h.same hsame) ?_⟩
      rintro b stored ⟨-, hok⟩
      cases hok

theorem perform_remove_ends (key : Locator) :
    ((Call.remove key).perform clock).Ends s fun result after => IsSound after ∧
      (⟨s, .remove key, clock, result, after⟩ : Performed σ).DoesAsAsked := by
  refine (remove_keeps h hs key).mono ?_
  rintro result after ⟨hafter, ⟨rfl, habsent, hframe⟩ | ⟨fault, rfl, hsame⟩⟩
  · refine ⟨hafter, fun _ _ => False.elim, ?_⟩
    intro l _ hremoved
    by_cases hl : l = key
    · subst hl
      rw [habsent, eq_comm, Option.eq_none_iff_forall_ne_some]
      intro b hb
      exact hremoved ⟨rfl, b, congrArg Except.ok hb⟩
    · exact hframe l hl
  · exact ⟨hafter, Performed.doesAsAsked_of_same (h.same hsame) fun _ _ => id⟩

theorem perform_removeSame_ends (b : Bookmark) :
    ((Call.removeSame b).perform clock).Ends s fun result after => IsSound after ∧
      (⟨s, .removeSame b, clock, result, after⟩ : Performed σ).DoesAsAsked := by
  refine (removeSame_keeps h hs b).mono ?_
  rintro result after ⟨hafter, ⟨rfl, hsame⟩ | ⟨found, rfl, -, -, hframe⟩ | ⟨fault, rfl, hsame⟩⟩
  · exact ⟨hafter, Performed.doesAsAsked_of_same hsame fun _ _ => id⟩
  · refine ⟨hafter, fun _ _ => False.elim, ?_⟩
    intro l _ hremoved
    exact hframe l fun hl => hremoved ⟨found, rfl, hl.symm⟩
  · exact ⟨hafter, Performed.doesAsAsked_of_same (h.same hsame) fun _ _ => id⟩

theorem perform_visit_ends (key : Locator) :
    ((Call.visit key).perform clock).Ends s fun result after => IsSound after ∧
      (⟨s, .visit key, clock, result, after⟩ : Performed σ).DoesAsAsked := by
  refine (visitAt_keeps h hs (clock 0) (clock 1) key).mono ?_
  rintro result after ⟨hafter, ⟨habsent, rfl, rfl⟩ |
    ⟨found, b, stored, hfound, hb, hlocator, rfl, hchanged, hput, hframe⟩ | ⟨fault, rfl, hsame⟩⟩
  · refine ⟨hafter, Performed.doesAsAsked_of_same (fun _ => rfl) ?_⟩
    rintro b stored ⟨_, -, -, hok⟩
    cases hok
  · refine ⟨hafter, ?_, ?_⟩
    · rintro other kept ⟨current, hcurrent, hother, hkept⟩
      cases hfound.symm.trans hcurrent
      cases hb.symm.trans hother
      cases hkept
      exact ⟨hchanged, hlocator ▸ hput⟩
    · intro l hwrote _
      refine hframe l fun hl => hwrote b stored ⟨found, hfound, hb, rfl⟩ (hlocator.trans hl.symm)
  · refine ⟨hafter, Performed.doesAsAsked_of_same (h.same hsame) ?_⟩
    rintro b stored ⟨_, -, -, hok⟩
    cases hok

theorem perform_replace_execute (old : Locator) (given : Bookmark) :
    let done := ((Call.replace old given).perform clock).execute s
    IsSound done.2.state ∧
      (⟨s, .replace old given, clock, done.1, done.2.state⟩ : Performed σ).DoesAsAsked := by
  intro done
  have hdone : done = (((Store.replace (clock 0) old given).execute s).1.map some,
      ((Store.replace (clock 0) old given).execute s).2) := execute_bind_pure some s
  rw [hdone]
  have hadded := (add_keeps h hs (clock 0) given).execute.2
  have hchanged : ∀ {stored}, ((Store.add (clock 0) given).execute s).1 = .ok stored →
      changed given (missingTimes given (Store.get s given.locator) (clock 0)) = .ok stored := by
    intro stored hstored
    obtain ⟨other, hok, hchanged, -⟩ | ⟨fault, hfault, -⟩ := hadded
    · cases hok.symm.trans hstored
      exact hchanged
    · cases hfault.symm.trans hstored
  obtain ⟨hsound, ⟨fault, hfailed, -, hsame⟩ | ⟨stored, fault, hstored, -, -, -, hput, -, hframe⟩ |
    ⟨stored, hstored, hok, hput, -, hframe⟩⟩ := replace_keeps h hs (clock 0) old given []
  · refine ⟨hsound, Performed.doesAsAsked_of_same (h.same hsame) ?_⟩
    rintro b stored ⟨-, hstored⟩
    cases hfailed.symm.trans hstored
  · refine ⟨hsound, ?_, ?_⟩
    · rintro b kept ⟨rfl, hkept⟩
      cases hstored.symm.trans hkept
      exact ⟨hchanged hstored, hput⟩
    · intro l hwrote _
      exact hframe l (hwrote given stored ⟨rfl, hstored⟩).symm
  · refine ⟨hsound, ?_, ?_⟩
    · rintro b kept ⟨rfl, hkept⟩
      cases hstored.symm.trans hkept
      exact ⟨hchanged hstored, hput⟩
    · intro l hwrote hremoved
      have hother := hwrote given stored ⟨rfl, hstored⟩
      refine hframe l hother.symm ?_
      rintro rfl
      exact hremoved ⟨rfl, hother, some stored, congrArg (Except.map some) hok⟩

end

/-- A call does what was asked of it and nothing else. -/
theorem Performed.doesAsAsked {σ : Type} [KeyedMap σ Locator Bookmark] {IsSound : σ → Prop}
    {Same : σ → σ → Prop} (h : Reliable IsSound Same) {p : Performed σ} (hs : IsSound p.before)
    (hrun : p.IsRun) : IsSound p.after ∧ p.DoesAsAsked := by
  obtain ⟨s, call, clock, result, after⟩ := p
  obtain ⟨events, hrun⟩ := hrun
  dsimp only at hs hrun ⊢
  have hdone : let done := (call.perform clock).execute s
      IsSound done.2.state ∧ (⟨s, call, clock, done.1, done.2.state⟩ : Performed σ).DoesAsAsked := by
    cases call with
    | add given => exact (perform_add_ends h hs clock given).execute
    | remove key => exact (perform_remove_ends h hs clock key).execute
    | removeSame b => exact (perform_removeSame_ends h hs clock b).execute
    | replace old given => exact perform_replace_execute h hs clock old given
    | visit key => exact (perform_visit_ends h hs clock key).execute
    | get key => exact ⟨hs, doesAsAsked_of_same (fun _ => rfl) fun _ _ => id⟩
  rw [hrun] at hdone
  exact hdone

/-! ## Calls in sequence -/

section

variable {σ : Type} [KeyedMap σ Locator Bookmark]

/-- Calls one after the other. Before each of them, changes may begin or cease to be refused. -/
inductive IsHistory (Refusing : σ → σ → Prop) : σ → List (Performed σ) → σ → Prop where
  | nil (s : σ) : IsHistory Refusing s [] s
  | cons {s last : σ} {p : Performed σ} {rest : List (Performed σ)}
      (hrefusing : Refusing s p.before) (hrun : p.IsRun)
      (hrest : IsHistory Refusing p.after rest last) : IsHistory Refusing s (p :: rest) last

theorem IsHistory.ofCall {Refusing : σ → σ → Prop} {s before last : σ} {call : Call} {now : Instant}
    {rest : List (Performed σ)} (hrefusing : Refusing s before)
    (hrest : IsHistory Refusing (Performed.ofCall before call now).after rest last) :
    IsHistory Refusing s (Performed.ofCall before call now :: rest) last :=
  .cons hrefusing ⟨_, rfl⟩ hrest

/-- Whether what is refused does not matter to what is stored. -/
structure IsHarmless (IsSound : σ → Prop) (Refusing : σ → σ → Prop) : Prop where
  sound : ∀ {s after}, Refusing s after → IsSound s → IsSound after
  same : ∀ {s after}, Refusing s after → ∀ l, get after l = get s l

theorem IsHistory.isSound {IsSound : σ → Prop} {Same Refusing : σ → σ → Prop}
    (h : Reliable IsSound Same) (hharmless : IsHarmless IsSound Refusing) {s last : σ}
    {log : List (Performed σ)} (hlog : IsHistory Refusing s log last) (hs : IsSound s) :
    IsSound last := by
  induction hlog with
  | nil s => exact hs
  | cons hrefusing hrun _ ih =>
      exact ih (Performed.doesAsAsked h (hharmless.sound hrefusing hs) hrun).1

end

/-- Whether the device of a directory refuses other steps from now on. -/
def DeviceRefuses (r after : RecordDirectory Bookmark Locator) : Prop :=
  ∃ refusal?, after = { r with disk := { r.disk with refusal? } }

theorem deviceRefuses_refl (r : RecordDirectory Bookmark Locator) : DeviceRefuses r r :=
  ⟨r.disk.refusal?, rfl⟩

theorem isHarmless_device (p : Path) : IsHarmless (IsSoundAt p) DeviceRefuses where
  sound := by
    rintro r _ ⟨refusal?, rfl⟩ hr
    exact hr.refusing refusal?
  same := by
    rintro r _ ⟨refusal?, rfl⟩ l
    rfl

/-- Whether a map in memory refuses other changes from now on. -/
def MapRefuses (m after : MemoryMap Locator Bookmark) : Prop :=
  ∃ addRefused removeRefused, after = { m with addRefused, removeRefused }

theorem isHarmless_map :
    IsHarmless (fun m : MemoryMap Locator Bookmark => m.entries.IsSound) MapRefuses where
  sound := by
    rintro m _ ⟨addRefused, removeRefused, rfl⟩ hm
    exact hm
  same := by
    rintro m _ ⟨addRefused, removeRefused, rfl⟩ l
    rfl

theorem IsHistory.isSoundAt {clock : Nat → Instant} {p : Path} {d : Disk}
    {opened s : RecordDirectory Bookmark Locator}
    {log : List (Performed (RecordDirectory Bookmark Locator))}
    (hopened : ((load clock p).execute d).1 = .ok opened)
    (hlog : IsHistory DeviceRefuses opened log s) : IsSoundAt p s :=
  hlog.isSound (reliable p) (isHarmless_device p) ((load_isSoundAt clock p d).execute.1 opened hopened)

theorem IsHistory.isSound_inMemory {m s : MemoryMap Locator Bookmark}
    {log : List (Performed (MemoryMap Locator Bookmark))} (hreached : IsReachedInMemory m)
    (hlog : IsHistory MapRefuses m log s) : s.entries.IsSound :=
  hlog.isSound MemoryMap.reliable isHarmless_map hreached.isSound

end LinkShelf.Store
