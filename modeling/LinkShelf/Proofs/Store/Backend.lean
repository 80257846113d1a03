import LinkShelf.Proofs.Store.Alike

/-!
Stores on different maps. Main statement: whatever is asked of a store in a directory and of one in
memory, changes failing alike in both, is answered alike until a visit count is to be written that
has too many digits (`answers_eq_iff`).
-/

namespace LinkShelf

open Operation RecordDirectory

namespace Backend

/-- Where a bookmark is asked for: at a locator, or at the URL that a text writes. -/
inductive Place where
  | locator (l : Locator)
  | url (text : String)

def Place.resolve : Place → Except Failure Locator
  | .locator l => .ok l
  | .url text =>
    match Locator.of text with
    | .ok l => .ok l
    | .error fault => .error (.url fault)

inductive Request where
  | get (place : Place)
  | contains (place : Place)
  | size
  | tags
  | all
  | add (b : Bookmark)
  | remove (place : Place)
  | removeSame (b : Bookmark)
  | replace (old : Place) (b : Bookmark)
  | visit (place : Place)

inductive Answer where
  | found (b : Option Bookmark)
  | truth (holds : Bool)
  | number (n : Nat)
  | values (items : List Json)
  | bookmarks (items : List Bookmark)

namespace Request

def bookmark? : Request → Option Bookmark
  | .add b => some b
  | .replace _ b => some b
  | _ => none

variable {σ : Type} [KeyedMap σ Locator Bookmark]

def perform (clock : Nat → Instant) : Request → Operation σ Answer
  | .get place => do
    let l ← Operation.settled place.resolve
    return .found (Store.get (← Operation.current) l)
  | .contains place => do
    let l ← Operation.settled place.resolve
    return .truth (Store.contains (← Operation.current) l)
  | .size => do return .number (Store.size (← Operation.current))
  | .tags => do return .values (← Operation.settled (Store.tags (← Operation.current)))
  | .all => do return .bookmarks (Store.all (← Operation.current))
  | .add b => do return .found (some (← Store.add (clock 0) b))
  | .remove place => do
    let l ← Operation.settled place.resolve
    return .found (← Store.remove l)
  | .removeSame b => do return .found (← Store.removeSame b)
  | .replace old b => do
    let l ← Operation.settled old.resolve
    return .found (some (← Store.replace (clock 0) l b))
  | .visit place => do
    let l ← Operation.settled place.resolve
    return .found (← Store.visitAt (clock 0) (clock 1) l)

/-- The visit count that a request would write into a store, if any. -/
def count? (s : σ) : Request → Option Json
  | .add b => some b.visitCount
  | .replace old b => old.resolve.toOption.map fun _ => b.visitCount
  | .visit place => do
    let l ← place.resolve.toOption
    let b ← Store.get s l
    return Bookmark.nextVisit b.visitCount
  | _ => none

def overflows (s : σ) (request : Request) : Bool := (request.count? s).any Json.hasOversized

theorem overflows_replace {s : σ} {old : Place} {b : Bookmark} :
    (replace old b).overflows s = true ↔
      ∃ l, old.resolve = .ok l ∧ b.visitCount.hasOversized = true := by
  simp only [overflows, count?, Option.any_map, Option.any_eq_true, toOption_eq_some]

theorem overflows_visit {s : σ} {place : Place} :
    (visit place).overflows s = true ↔ ∃ l, place.resolve = .ok l ∧
      ∃ b, Store.get s l = some b ∧ (Bookmark.nextVisit b.visitCount).hasOversized = true := by
  simp only [overflows, count?, Option.bind_eq_bind, Option.any_bind, Option.any_eq_true,
    toOption_eq_some, Function.comp_apply, Option.pure_def, Option.some.injEq, exists_eq_left']

end Request

/-- A request, with the moments that the clock gives and the failures meanwhile. -/
structure Turn where
  request : Request
  clock : Nat → Instant
  faults : Faults

section

variable {σ : Type} [KeyedMap σ Locator Bookmark] [Fallible σ]

def Turn.serve (turn : Turn) (s : σ) : Except Failure Answer × σ :=
  let done := (turn.request.perform turn.clock).execute (Fallible.failing turn.faults s)
  (done.1, done.2.state)

def answers : List Turn → σ → List (Except Failure Answer)
  | [], _ => []
  | turn :: rest, s => (turn.serve s).1 :: answers rest (turn.serve s).2

/-- Whether no visit count of too many digits is to be written. -/
def countsFit : List Turn → σ → Bool
  | [], _ => true
  | turn :: rest, s => !turn.request.overflows s && countsFit rest (turn.serve s).2

end

/-! ## Single requests -/

section

variable {σ τ : Type} [KeyedMap σ Locator Bookmark] [KeyedMap τ Locator Bookmark]
  {Rel : σ → τ → Prop} {s : σ} {t : τ}

theorem perform_alike (h : MapsAlike Bookmark.IsWritable Rel) (hrel : Rel s t) {request : Request}
    (hbookmark : ∀ b, request.bookmark? = some b → b.IsTextual)
    (hcount : request.overflows t = false) (clock : Nat → Instant) :
    Alike Rel (request.perform clock) (request.perform clock) s t := by
  cases request with
  | get place =>
      refine alike_settled_bind hrel fun l _ => alike_current_bind ?_
      rw [Store.get_eq h hrel]
      exact alike_pure hrel _
  | contains place =>
      refine alike_settled_bind hrel fun l _ => alike_current_bind ?_
      rw [Store.contains, Store.contains, Store.get_eq h hrel]
      exact alike_pure hrel _
  | size =>
      refine alike_current_bind ?_
      rw [Store.size, Store.size, Store.all_eq h hrel]
      exact alike_pure hrel _
  | tags =>
      refine alike_current_bind ?_
      rw [Store.tags, Store.tags, Store.all_eq h hrel]
      exact alike_settled_bind hrel fun items _ => alike_pure hrel _
  | all =>
      refine alike_current_bind ?_
      rw [Store.all_eq h hrel]
      exact alike_pure hrel _
  | add b =>
      have hb : b.IsWritable := ⟨hbookmark b rfl, hcount⟩
      exact alike_bind (Store.add_alike h hrel _ hb) fun _ _ _ hafter => alike_pure hafter _
  | remove place =>
      refine alike_settled_bind hrel fun l _ => ?_
      exact alike_bind (Store.remove_alike h hrel l) fun _ _ _ hafter => alike_pure hafter _
  | removeSame b =>
      exact alike_bind (Store.removeSame_alike h hrel b) fun _ _ _ hafter => alike_pure hafter _
  | replace old b =>
      refine alike_settled_bind hrel fun l hl => ?_
      have hb : b.IsWritable := by
        refine ⟨hbookmark b rfl, Bool.eq_false_of_not_eq_true fun hoversized => ?_⟩
        exact Bool.eq_false_iff.mp hcount (Request.overflows_replace.mpr ⟨l, hl, hoversized⟩)
      exact alike_bind (Store.replace_alike h hrel _ l hb) fun _ _ _ hafter => alike_pure hafter _
  | visit place =>
      refine alike_settled_bind hrel fun l hl => ?_
      refine alike_bind (Store.visitAt_alike h hrel _ _ l ?_) fun _ _ _ hafter =>
        alike_pure hafter _
      refine fun b hb => Bool.eq_false_of_not_eq_true fun hoversized => ?_
      exact Bool.eq_false_iff.mp hcount (Request.overflows_visit.mpr ⟨l, hl, b, hb, hoversized⟩)

end

section

variable {p : Path} {l : Location} {r : RecordDirectory Bookmark Locator}
  {m : FallibleMap Locator Bookmark} {request : Request}

theorem perform_differs (h : Mimics Bookmark.IsWritable p l r m)
    (hbookmark : ∀ b, request.bookmark? = some b → b.IsTextual)
    (hcount : request.overflows m = true) (clock : Nat → Instant) :
    ((request.perform clock).execute r).1 ≠ ((request.perform clock).execute m).1 := by
  -- The directory refuses the count whatever else fails, and the map in memory never does.
  suffices hends :
      (request.perform clock).Ends r (fun result _ => result = .error .oversizedInteger) ∧
        (request.perform clock).Ends m fun result _ => result ≠ .error .oversizedInteger by
    rw [hends.1.execute]
    exact hends.2.execute.symm
  cases request with
  | add b =>
      have hb := hbookmark b rfl
      constructor
      · exact ends_bind_of_error (Store.add_ends_oversized hb hcount)
      · exact ends_bind_ne_error (Store.add_ends_inMemory hb) fun _ _ => ends_pure.mpr nofun
  | replace old b =>
      have hb := hbookmark b rfl
      obtain ⟨place, hold, hoversized⟩ := Request.overflows_replace.mp hcount
      simp only [Request.perform, hold]
      constructor
      · refine ends_settled_ok_bind.mpr (ends_bind_of_error (ends_bind_of_error ?_))
        exact Store.add_ends_oversized hb hoversized
      · refine ends_settled_ok_bind.mpr (ends_bind_ne_error ?_ fun _ _ => ends_pure.mpr nofun)
        exact Store.replace_ends_inMemory place hb
  | visit place =>
      obtain ⟨there, hplace, b, hfound, hoversized⟩ := Request.overflows_visit.mp hcount
      have hb := ((Store.mapsAlike p l).fits h hfound).toIsTextual
      have hsame := (Store.get_eq (Store.mapsAlike p l) h there).trans hfound
      simp only [Request.perform, hplace]
      constructor
      · refine ends_settled_ok_bind.mpr (ends_bind_of_error ?_)
        exact Store.visitAt_ends_oversized hsame hb hoversized
      · refine ends_settled_ok_bind.mpr (ends_bind_ne_error ?_ fun _ _ => ends_pure.mpr nofun)
        exact Store.visitAt_ends_inMemory hfound hb
  | _ => cases hcount

/-! ## Requests in sequence -/

theorem overflows_failing (faults : Faults) :
    request.overflows (Fallible.failing faults m) = request.overflows m := by
  cases request <;> rfl

/-- Stores that are alike whenever they are made to fail alike answer alike, exactly if the counts
fit. -/
theorem answers_eq_iff_of_mimics {turns : List Turn}
    (h : ∀ faults, Mimics Bookmark.IsWritable p l (Fallible.failing faults r)
      (Fallible.failing faults m))
    (hturns : ∀ turn ∈ turns, ∀ b, turn.request.bookmark? = some b → b.IsTextual) :
    answers turns r = answers turns m ↔ countsFit turns m = true := by
  induction turns generalizing r m with
  | nil => exact ⟨fun _ => rfl, fun _ => rfl⟩
  | cons turn rest ih =>
      -- The first count that does not fit tells the stores apart; until then they stay alike.
      have hbookmark := hturns turn (by simp)
      rw [answers, answers, countsFit, List.cons.injEq]
      cases hcount : turn.request.overflows m with
      | true =>
          have hdiffers := perform_differs (h turn.faults) hbookmark
            ((overflows_failing turn.faults).trans hcount) turn.clock
          constructor
          · exact fun hanswers => absurd hanswers.1 hdiffers
          · nofun
      | false =>
          obtain ⟨hanswer, hafter⟩ := (perform_alike (Store.mapsAlike p l) (h turn.faults) hbookmark
            ((overflows_failing turn.faults).trans hcount) turn.clock).execute
          have hrest := ih (r := (turn.serve r).2) (m := (turn.serve m).2) hafter.failing
            fun other hother => hturns other (by simp [hother])
          rw [hrest]
          exact ⟨fun hanswers => hanswers.2, fun hfit => ⟨hanswer, hfit⟩⟩

end

theorem answers_eq_iff {d made : Disk} {p : Path} {l : Location} {turns : List Turn}
    (hmade : d.makeDirectories p = (.ok (), made)) (hlocated : made.locate p = .ok l)
    (hempty : made.files.names l = []) (hroom : p.text.utf8ByteSize + 46 ≤ Disk.maxPathBytes)
    (hturns : ∀ turn ∈ turns, ∀ b, turn.request.bookmark? = some b → b.IsReadFromTexts)
    (clock : Nat → Instant) :
    ∃ opened, ((Store.load clock p).execute d).1 = .ok opened ∧
      (answers turns opened = answers turns (FallibleMap.empty : FallibleMap Locator Bookmark) ↔
        countsFit turns (FallibleMap.empty : FallibleMap Locator Bookmark) = true) := by
  obtain ⟨there, hthere, hdirectory⟩ := Disk.exists_of_makeDirectories_eq_ok hmade
  obtain rfl : there = l := Except.ok.inj (hthere.symm.trans hlocated)
  refine ⟨_, (Store.load_of_empty hmade hlocated hempty clock).execute, ?_⟩
  apply answers_eq_iff_of_mimics (Mimics.of_empty hlocated hdirectory hempty hroom "url")
  exact fun turn hturn b hb => (hturns turn hturn b hb).isTextual

/-! Two pages: the first cannot be written at first, and cannot be deleted when the other one is to
take its place. -/

def shelfTurns : List Turn :=
  [⟨.add (Store.samplePage "http://a.org/"), fun _ => Store.noon, ⟨some "disk full", none⟩⟩,
    ⟨.add (Store.samplePage "http://a.org/"), fun _ => Store.noon, ⟨none, none⟩⟩,
    ⟨.visit (.url "HTTP://a.org"), fun _ => Store.noon, ⟨none, none⟩⟩,
    ⟨.replace (.url "http://a.org/") (Store.samplePage "http://b.org/"), fun _ => Store.noon,
      ⟨none, some "read-only file system"⟩⟩,
    ⟨.all, fun _ => Store.noon, ⟨none, none⟩⟩]

theorem shelfTurns_areReadFromTexts :
    ∀ turn ∈ shelfTurns, ∀ b, turn.request.bookmark? = some b → b.IsReadFromTexts := by
  have hfirst : (Store.samplePage "http://a.org/").IsReadFromTexts :=
    (Store.samplePage_isCanonical rfl).isReadFromTexts
  have hsecond : (Store.samplePage "http://b.org/").IsReadFromTexts :=
    (Store.samplePage_isCanonical rfl).isReadFromTexts
  simp [shelfTurns, Request.bookmark?, hfirst, hsecond]

theorem answers_eq_iff_shelfTurns :
    (answers shelfTurns (FallibleMap.empty : FallibleMap Locator Bookmark)).map Except.isOk =
        [false, true, true, false, true] ∧
      ∃ opened, ((Store.load (fun _ => Store.noon) (.ofParts ["shelf"])).execute
          Store.sampleDisk).1 = .ok opened ∧
        answers shelfTurns opened =
          answers shelfTurns (FallibleMap.empty : FallibleMap Locator Bookmark) := by
  obtain ⟨opened, hopened, hanswers⟩ := answers_eq_iff (d := Store.sampleDisk)
    (p := .ofParts ["shelf"]) (l := ["shelf"]) rfl rfl rfl (by decide) shelfTurns_areReadFromTexts
    (fun _ => Store.noon)
  refine ⟨by decide +kernel, opened, hopened, hanswers.mpr ?_⟩
  decide +kernel

/-! A page on whose next visit the count has a digit too many: the directory refuses the count
before it finds that nothing can be written. -/

def wornPage : Bookmark :=
  { Store.samplePage "http://a.org/" with visitCount := .int (10 ^ 4300 - 1 : Nat) }

def wornTurns : List Turn :=
  [⟨.add wornPage, fun _ => Store.noon, ⟨none, none⟩⟩,
    ⟨.visit (.url "http://a.org/"), fun _ => Store.noon, ⟨some "disk full", none⟩⟩]

theorem wornPage_isReadFromTexts : wornPage.IsReadFromTexts := by
  have hpage : (Store.samplePage "http://a.org/").IsCanonical := Store.samplePage_isCanonical rfl
  have hcanonical : wornPage.IsCanonical :=
    ⟨hpage.url, hpage.title, hpage.notes, hpage.image, hpage.tags, hpage.color, hpage.created,
      hpage.modified, hpage.lastVisited, .inr ⟨_, rfl⟩⟩
  exact hcanonical.isReadFromTexts

theorem answers_differ_wornTurns :
    (∀ turn ∈ wornTurns, ∀ b, turn.request.bookmark? = some b → b.IsReadFromTexts) ∧
      ∃ opened, ((Store.load (fun _ => Store.noon) (.ofParts ["shelf"])).execute
          Store.sampleDisk).1 = .ok opened ∧
        answers wornTurns opened ≠
          answers wornTurns (FallibleMap.empty : FallibleMap Locator Bookmark) := by
  have hturns : ∀ turn ∈ wornTurns, ∀ b, turn.request.bookmark? = some b →
      b.IsReadFromTexts := by
    simp [wornTurns, Request.bookmark?, wornPage_isReadFromTexts]
  have hlocated : Store.sampleDisk.locate (.ofParts ["shelf"]) = .ok ["shelf"] := rfl
  have hfit : countsFit wornTurns (FallibleMap.empty : FallibleMap Locator Bookmark) = false := by
    decide +kernel
  refine ⟨hturns, _, (Store.load_of_empty rfl hlocated rfl fun _ => Store.noon).execute, ?_⟩
  intro hanswers
  have hanswer := (answers_eq_iff_of_mimics (Mimics.of_empty hlocated rfl rfl (by decide) "url")
    fun turn hturn b hb => (hturns turn hturn b hb).isTextual).mp hanswers
  rw [hfit] at hanswer
  cases hanswer

end Backend

end LinkShelf
