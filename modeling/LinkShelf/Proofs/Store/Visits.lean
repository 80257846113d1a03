import LinkShelf.Proofs.Store.CreationTimes
import Mathlib.Logic.Function.Basic

/-!
Visits of clients that take turns. Main statement: whoever is served when, and whatever fails, each
visit to a page that did not fail is counted once, the last of them is the last visit, and everything
else about the page is as it was (`visits_counted`).
-/

namespace LinkShelf.Store

open Operation RecordDirectory

section

variable {σ : Type} [KeyedMap σ Locator Bookmark]

/-- Whether a call is a visit to a locator that did not fail. -/
def Performed.isVisitTo (p : Performed σ) (l : Locator) : Bool :=
  match p.call, p.result with
  | .visit key, .ok _ => key = l
  | _, _ => false

/-- The visits to a locator that did not fail. -/
def visitsTo (l : Locator) (log : List (Performed σ)) : List (Performed σ) :=
  log.filter (·.isVisitTo l)

/-- A bookmark with as many visits as there were more of, the last of them at its time. A count that
is missing is zero, and without visits it is left as it is. -/
def withVisits (b : Bookmark) (n : Int) (visits : List (Performed σ)) : Bookmark :=
  { b with
    visitCount := if visits.isEmpty then b.visitCount else .int (n + visits.length)
    lastVisited := (visits.getLast?.map fun p => p.clock 0).or b.lastVisited }

/-- Clients that are served one call at a time, each in the order of its own calls. Before each call,
changes may begin or cease to be refused. -/
inductive Serves {ι : Type} [DecidableEq ι] (Refusing : σ → σ → Prop) :
    (ι → List Call) → σ → List (Performed σ) → (ι → List Call) → σ → Prop where
  | done (waiting : ι → List Call) (s : σ) : Serves Refusing waiting s [] waiting s
  | next {waiting left : ι → List Call} {s last : σ} {p : Performed σ} {rest : List (Performed σ)}
      (client : ι) (calls : List Call) (hwaiting : waiting client = p.call :: calls)
      (hrefusing : Refusing s p.before) (hrun : p.IsRun)
      (hrest : Serves Refusing (Function.update waiting client calls) p.after rest left last) :
      Serves Refusing waiting s (p :: rest) left last

theorem Serves.ofCall {ι : Type} [DecidableEq ι] {Refusing : σ → σ → Prop}
    {waiting left : ι → List Call} {s last : σ} {call : Call} {now : Instant}
    {rest : List (Performed σ)} (client : ι) {calls : List Call}
    (hwaiting : waiting client = call :: calls) (hrefusing : Refusing s s)
    (hrest : Serves Refusing (Function.update waiting client calls)
      (Performed.ofCall s call now).after rest left last) :
    Serves Refusing waiting s (Performed.ofCall s call now :: rest) left last :=
  .next client calls hwaiting hrefusing ⟨_, rfl⟩ hrest

theorem Serves.isHistory {ι : Type} [DecidableEq ι] {Refusing : σ → σ → Prop}
    {waiting left : ι → List Call} {s last : σ} {log : List (Performed σ)}
    (hserves : Serves Refusing waiting s log left last) : IsHistory Refusing s log last := by
  induction hserves with
  | done _ s => exact .nil s
  | next _ _ _ hrefusing hrun _ ih => exact .cons hrefusing hrun ih

/-- Whether only visits write to a locator, and no call takes a bookmark from it. -/
def OnlyVisited (l : Locator) (log : List (Performed σ)) : Prop :=
  ∀ p ∈ log, ¬p.Removed l ∧ (p.call.isVisit = false → ∀ b stored, p.Wrote b stored → b.locator ≠ l)

/-- Whether a count is a number of visits; a missing one is zero. -/
def IsCount (count : Json) (n : Int) : Prop := (count = .null ∧ n = 0) ∨ count = .int n

/-- Whether visits are counted from a state on. -/
structure CountsVisits (Refusing : σ → σ → Prop) (s : σ) : Prop where
  counted : ∀ {ι : Type} [DecidableEq ι] {waiting left : ι → List Call} {log last l b n},
    Serves Refusing waiting s log left last → get s l = some b → b.created.isSome →
    b.modified.isSome → IsCount b.visitCount n → OnlyVisited l log →
    get last l = some (withVisits b n (visitsTo l log))
  absent : ∀ visited stored l, get s l = none →
    (visitAt visited stored l).execute s = (.ok none, ⟨s, []⟩)

/-! ## Single visits -/

theorem nextVisit_of_isCount {count : Json} {n : Int} (hcount : IsCount count n) :
    Bookmark.nextVisit count = .int (n + 1) := by
  obtain ⟨rfl, rfl⟩ | rfl := hcount
  · rfl
  · by_cases hn : n = 0
    · simp [Bookmark.nextVisit, Json.isBlank, hn]
    · simp [Bookmark.nextVisit, Json.isBlank, hn]

variable {IsSound : σ → Prop} {Same Refusing : σ → σ → Prop} {s last : σ} {p : Performed σ}
  {log : List (Performed σ)} {l : Locator} {b : Bookmark} {n : Int}
  (h : Reliable IsSound Same)

include h

/-- A visit that did not fail wrote the bookmark after one more visit. -/
theorem exists_wrote_of_visit (hs : IsSound p.before) (hrun : p.IsRun) (hb : get p.before l = some b)
    (hvisit : p.isVisitTo l = true) :
    ∃ visited stored, b.visited (p.clock 0) = .ok visited ∧ p.Wrote visited stored := by
  obtain ⟨s, call, clock, result, after⟩ := p
  obtain ⟨events, hrun⟩ := hrun
  simp only [Performed.isVisitTo] at hvisit
  split at hvisit
  · next key found =>
      obtain rfl := of_decide_eq_true hvisit
      have hends := (visitAt_keeps h hs (clock 0) (clock 1) key).execute
      change (visitAt (clock 0) (clock 1) key).execute s = _ at hrun
      rw [hrun] at hends
      obtain ⟨-, ⟨habsent, -⟩ | ⟨found, visited, stored, hfound, hvisited, -, hok, -⟩ |
        ⟨fault, hfault, -⟩⟩ := hends
      · cases hb.symm.trans habsent
      · cases hb.symm.trans hfound
        exact ⟨visited, stored, hvisited, b, hb, hvisited, hok⟩
      · cases hfault
  · cases hvisit

theorem get_after_of_visit (hs : IsSound p.before) (hrun : p.IsRun) (hb : get p.before l = some b)
    (hcreated : b.created.isSome) (hmodified : b.modified.isSome) (hcount : IsCount b.visitCount n)
    (hvisit : p.isVisitTo l = true) :
    get p.after l =
      some { b with visitCount := .int (n + 1), lastVisited := some (p.clock 0) } := by
  obtain ⟨visited, stored, hvisited, hwrote⟩ := exists_wrote_of_visit h hs hrun hb hvisit
  obtain ⟨hchanged, hstored⟩ := (Performed.doesAsAsked h hs hrun).2.wrote visited stored hwrote
  obtain rfl := eq_of_visited hvisited
  have hl : b.locator = l := h.keyed hs hb
  rw [hl] at hstored
  rw [hstored, eq_of_changed hchanged, nextVisit_of_isCount hcount]
  obtain ⟨made, hmade⟩ := Option.isSome_iff_exists.mp hcreated
  obtain ⟨time, htime⟩ := Option.isSome_iff_exists.mp hmodified
  simp [hmade, htime]

/-- What is no visit to a page, or one that failed, leaves the page alone. -/
theorem get_after_of_other (hs : IsSound p.before) (hrun : p.IsRun) (hremoved : ¬p.Removed l)
    (hwrote : p.call.isVisit = false → ∀ b stored, p.Wrote b stored → b.locator ≠ l)
    (hvisit : p.isVisitTo l = false) : get p.after l = get p.before l := by
  refine (Performed.doesAsAsked h hs hrun).2.kept l ?_ hremoved
  obtain ⟨s, call, clock, result, after⟩ := p
  cases call with
  | visit key =>
      rintro b stored ⟨found, hfound, hvisited, hok⟩ hl
      obtain rfl := eq_of_visited hvisited
      obtain rfl : key = l := (h.keyed hs hfound).symm.trans hl
      dsimp only at hok
      simp [Performed.isVisitTo, hok] at hvisit
  | _ => exact hwrote rfl

/-! ## Histories -/

omit [KeyedMap σ Locator Bookmark] h in
theorem withVisits_cons (visits : List (Performed σ)) :
    withVisits { b with visitCount := .int (n + 1), lastVisited := some (p.clock 0) } (n + 1) visits =
      withVisits b n (p :: visits) := by
  cases visits with
  | nil => simp [withVisits]
  | cons next rest =>
      simp only [withVisits, List.isEmpty_cons, List.length_cons, List.getLast?_cons_cons]
      simp [List.getLast?_cons, Int.add_assoc, Int.add_comm]

theorem get_of_history (hharmless : IsHarmless IsSound Refusing)
    (hlog : IsHistory Refusing s log last) (hs : IsSound s) (hb : get s l = some b)
    (hcreated : b.created.isSome) (hmodified : b.modified.isSome) (hcount : IsCount b.visitCount n)
    (honly : OnlyVisited l log) : get last l = some (withVisits b n (visitsTo l log)) := by
  induction hlog generalizing b n with
  | nil s => exact hb
  | @cons s last p rest hrefusing hrun _ ih =>
      obtain ⟨⟨hremoved, hwrote⟩, hrest⟩ := List.forall_mem_cons.mp honly
      have hbefore := hharmless.sound hrefusing hs
      have hafter := (Performed.doesAsAsked h hbefore hrun).1
      have hpage : get p.before l = some b := (hharmless.same hrefusing l).trans hb
      cases hvisit : p.isVisitTo l with
      | false =>
          have hkept := (get_after_of_other h hbefore hrun hremoved hwrote hvisit).trans hpage
          have hvisits : visitsTo l (p :: rest) = visitsTo l rest :=
            List.filter_cons_of_neg (by simp [hvisit])
          rw [ih hafter hkept hcreated hmodified hcount hrest, hvisits]
      | true =>
          have hvisited := get_after_of_visit h hbefore hrun hpage hcreated hmodified hcount hvisit
          have hvisits : visitsTo l (p :: rest) = p :: visitsTo l rest :=
            List.filter_cons_of_pos hvisit
          rw [ih hafter hvisited hcreated hmodified (.inr rfl) hrest, hvisits, withVisits_cons]

theorem countsVisits_of_reliable (hharmless : IsHarmless IsSound Refusing) (hs : IsSound s) :
    CountsVisits Refusing s where
  counted hserves := get_of_history h hharmless hserves.isHistory hs
  absent visited stored l hl := by
    refine (bind_apply_of_ok (rfl : current ⟨s, []⟩ = (.ok s, ⟨s, []⟩))).trans ?_
    rw [hl]
    rfl

end

/-- Visits are counted from every state on that calls lead to, of a directory that was opened and of
a map in memory. -/
theorem visits_counted :
    (∀ {clock : Nat → Instant} {p : Path} {d : Disk} {opened s : RecordDirectory Bookmark Locator}
      {earlier : List (Performed (RecordDirectory Bookmark Locator))},
      ((load clock p).execute d).1 = .ok opened → IsHistory DeviceRefuses opened earlier s →
      CountsVisits DeviceRefuses s) ∧
    ∀ {m s : MemoryMap Locator Bookmark} {earlier : List (Performed (MemoryMap Locator Bookmark))},
      IsReachedInMemory m → IsHistory MapRefuses m earlier s → CountsVisits MapRefuses s := by
  constructor
  · intro clock p d opened s earlier hopened hearlier
    exact countsVisits_of_reliable (reliable p) (isHarmless_device p) (hearlier.isSoundAt hopened)
  · intro m s earlier hreached hearlier
    exact countsVisits_of_reliable MemoryMap.reliable isHarmless_map
      (hearlier.isSound_inMemory hreached)

/-! Two clients: one visits a page twice, and the other one adds another page in between. -/

def sampleClients (visitor : Bool) : List Call :=
  if visitor then [.visit ⟨"http://a.org/"⟩, .visit ⟨"http://a.org/"⟩]
  else [.add (samplePage "http://b.org/")]

def sampleLog (s : RecordDirectory Bookmark Locator) :
    List (Performed (RecordDirectory Bookmark Locator)) :=
  let first := Performed.ofCall s (.visit ⟨"http://a.org/"⟩) noon
  let other := Performed.ofCall first.after (.add (samplePage "http://b.org/")) midnight
  [first, other, Performed.ofCall other.after (.visit ⟨"http://a.org/"⟩) midnight]

theorem withVisits_of_map_eq {σ : Type} {b : Bookmark} {n : Int} {visits : List (Performed σ)}
    {first second : Instant} (hvisits : visits.map (·.clock 0) = [first, second]) :
    withVisits b n visits = { b with visitCount := .int (n + 2), lastVisited := some second } := by
  obtain ⟨p, rest, rfl, -, hrest⟩ := List.map_eq_cons_iff.mp hvisits
  obtain ⟨q, none, rfl, rfl, hnone⟩ := List.map_eq_cons_iff.mp hrest
  obtain rfl := List.map_eq_nil_iff.mp hnone
  rfl

theorem visits_counted_noonStore :
    (∃ opened, ((load (fun _ => noon) (.ofParts ["shelf"])).execute sampleDisk).1 = .ok opened ∧
      ∃ left last b, Serves DeviceRefuses sampleClients (noonStore opened)
          (sampleLog (noonStore opened)) left last ∧
        get (noonStore opened) ⟨"http://a.org/"⟩ = some b ∧
        (visitsTo ⟨"http://a.org/"⟩ (sampleLog (noonStore opened))).map (·.clock 0) =
          [noon, midnight] ∧
        get last ⟨"http://a.org/"⟩ =
          some { b with visitCount := .int 2, lastVisited := some midnight }) ∧
    CountsVisits MapRefuses ((migrate fun _ => noon).execute pageInMemory).2.state := by
  obtain ⟨hdirectory, hmemory⟩ := visits_counted
  have hrun : (((load (fun _ => noon) (.ofParts ["shelf"])).execute sampleDisk).1.toOption.map
      fun opened => ((get (noonStore opened) ⟨"http://a.org/"⟩).map fun b =>
          (b.created.isSome, b.modified.isSome, b.visitCount.isNull),
        (visitsTo ⟨"http://a.org/"⟩ (sampleLog (noonStore opened))).map (·.clock 0))) =
          some (some (true, true, true), [noon, midnight]) := by
    decide +kernel
  obtain ⟨opened, hopened, hstates⟩ := Option.map_eq_some_iff.mp hrun
  obtain ⟨hpage, hvisits⟩ := Prod.mk.inj hstates
  obtain ⟨b, hb, hfields⟩ := Option.map_eq_some_iff.mp hpage
  simp only [Prod.mk.injEq] at hfields
  constructor
  · have hcounts : CountsVisits DeviceRefuses (noonStore opened) :=
      hdirectory (toOption_eq_some.mp hopened) (.ofCall (deviceRefuses_refl opened) (.nil _))
    have hserves : Serves DeviceRefuses sampleClients (noonStore opened)
        (sampleLog (noonStore opened)) _ _ :=
      .ofCall true rfl (deviceRefuses_refl _) (.ofCall false rfl (deviceRefuses_refl _)
        (.ofCall true rfl (deviceRefuses_refl _) (.done _ _)))
    have honly : OnlyVisited ⟨"http://a.org/"⟩ (sampleLog (noonStore opened)) := by
      refine List.forall_mem_cons.mpr ⟨⟨id, nofun⟩, List.forall_mem_cons.mpr ⟨⟨id, ?_⟩,
        List.forall_mem_cons.mpr ⟨⟨id, nofun⟩, by simp⟩⟩⟩
      rintro - other stored ⟨rfl, -⟩
      decide
    have hcount : IsCount b.visitCount 0 := by
      cases hnull : b.visitCount with
      | null => exact .inl ⟨rfl, rfl⟩
      | _ => simp [hnull, Json.isNull] at hfields
    have hlast := hcounts.counted hserves hb hfields.1 hfields.2.1 hcount honly
    refine ⟨opened, toOption_eq_some.mp hopened, _, _, b, hserves, hb, hvisits, ?_⟩
    rw [hlast, withVisits_of_map_eq hvisits]
    rfl
  · exact hmemory pageInMemory_isReached (.nil _)

end LinkShelf.Store
