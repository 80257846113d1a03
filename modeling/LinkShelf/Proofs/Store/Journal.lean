import LinkShelf.Proofs.Reports
import LinkShelf.Proofs.Store.CreationTimes
import Mathlib.Data.Set.Insert

/-!
What a store tells of its changes. Main statement: whoever reads the lines that the calls of a
history tell, and knows which pages there were before, knows which pages there are after each call,
whatever fails (`tells_all`).
-/

namespace LinkShelf.Store

open Operation RecordDirectory

/-- The locators of the bookmarks in a store. -/
def locators {σ : Type} [KeyedMap σ Locator Bookmark] (s : σ) : Set Locator :=
  fun l => contains s l = true

/-- The lines that some events tell: those that are told to everybody, and no warnings. -/
def told (events : List Event) : List String :=
  (events.filter (·.level = .info)).map (·.message)

/-- A change that a line is about. -/
inductive Entry where
  | added (l : Locator)
  | updated (l : Locator)
  | removed (l : Locator)
  | replaced (old new : Locator)

def Entry.line : Entry → String
  | .added l => "Added " ++ l.url
  | .updated l => "Updated " ++ l.url
  | .removed l => "Removed " ++ l.url
  | .replaced old new => "Replaced " ++ old.url ++ " with " ++ new.url

/-- What a reader of the lines knows: the pages there are, and the one that was written last. -/
structure Ledger where
  pages : Set Locator
  written : Locator

namespace Ledger

def locatorOf (cs : List Char) : Locator := ⟨String.ofList cs⟩

/-- What a line says. A URL may itself hold the word between two of them, so the second is taken for
the page that was written last, as it is in every line of that kind. -/
def entryOf (g : Ledger) (line : String) : Option Entry :=
  let after (start : String) := line.toList.dropPrefix? start.toList
  ((after "Added ").map fun url => .added (locatorOf url)).or <|
  ((after "Updated ").map fun url => .updated (locatorOf url)).or <|
  ((after "Removed ").map fun url => .removed (locatorOf url)).or <|
  ((after "Replaced ").bind fun rest => rest.dropSuffix? (" with " ++ g.written.url).toList).map
    fun url => .replaced (locatorOf url) g.written

def enter (g : Ledger) : Entry → Ledger
  | .added l => ⟨insert l g.pages, l⟩
  | .updated l => ⟨insert l g.pages, l⟩
  | .removed l => { g with pages := g.pages \ {l} }
  | .replaced old _ => { g with pages := g.pages \ {old} }

/-- What is known after a line; one that is about no change is passed over. -/
def follow (g : Ledger) (line : String) : Ledger := (g.entryOf line).elim g g.enter

end Ledger

/-- The pages there are after some lines. -/
def pagesAfter (pages : Set Locator) (lines : List String) : Set Locator :=
  (lines.foldl Ledger.follow ⟨pages, ⟨""⟩⟩).pages

/-! ## Reading lines -/

theorem dropPrefix?_append {α : Type} [BEq α] [LawfulBEq α] (start rest : List α) :
    (start ++ rest).dropPrefix? start = some rest :=
  List.dropPrefix?_eq_some_iff.mpr ⟨start, rfl, beq_self_eq_true start⟩

theorem dropSuffix?_append {α : Type} [BEq α] [LawfulBEq α] (start rest : List α) :
    (start ++ rest).dropSuffix? rest = some start :=
  List.dropSuffix?_eq_some_iff.mpr ⟨rest, rfl, beq_self_eq_true rest⟩

/-- The words that lines start with cannot be taken for those tried before them. -/
theorem starts_apart (rest : List Char) :
    ("Updated ".toList ++ rest).dropPrefix? "Added ".toList = none ∧
    ("Removed ".toList ++ rest).dropPrefix? "Added ".toList = none ∧
    ("Removed ".toList ++ rest).dropPrefix? "Updated ".toList = none ∧
    ("Replaced ".toList ++ rest).dropPrefix? "Added ".toList = none ∧
    ("Replaced ".toList ++ rest).dropPrefix? "Updated ".toList = none ∧
    ("Replaced ".toList ++ rest).dropPrefix? "Removed ".toList = none :=
  ⟨rfl, rfl, rfl, rfl, rfl, rfl⟩

namespace Ledger

/-- Whether a reader can tell what an entry is about. -/
def Knows (g : Ledger) : Entry → Prop
  | .replaced _ new => g.written = new
  | _ => True

theorem entryOf_line {g : Ledger} {entry : Entry} (hknows : g.Knows entry) :
    g.entryOf entry.line = some entry := by
  cases entry with
  | replaced old new =>
      obtain rfl : g.written = new := hknows
      simp only [entryOf, Entry.line, locatorOf, String.toList_append, List.append_assoc,
        starts_apart, dropPrefix?_append, Option.map_none, Option.none_or, Option.bind_some]
      rw [← String.toList_append, dropSuffix?_append, Option.map_some, String.ofList_toList]
  | _ =>
      simp only [entryOf, Entry.line, locatorOf, String.toList_append, starts_apart,
        dropPrefix?_append, Option.map_none, Option.map_some, Option.none_or, Option.some_or,
        String.ofList_toList]

/-- A reader finds an entry in its line, and in no other. -/
theorem entryOf_eq_some_iff {g : Ledger} {line : String} {entry : Entry} :
    g.entryOf line = some entry ↔ line = entry.line ∧ g.Knows entry := by
  constructor
  · intro hread
    have hafter : ∀ {start rest : List Char}, line.toList.dropPrefix? start = some rest →
        line = String.ofList start ++ String.ofList rest := by
      intro start rest hrest
      obtain ⟨same, hline, hsame⟩ := List.dropPrefix?_eq_some_iff.mp hrest
      rw [← String.ofList_append, ← eq_of_beq hsame, ← hline, String.ofList_toList]
    simp only [entryOf, Option.or_eq_some_iff, Option.map_eq_some_iff,
      Option.bind_eq_some_iff] at hread
    rcases hread with ⟨url, hurl, rfl⟩ | ⟨-, ⟨url, hurl, rfl⟩ | ⟨-, ⟨url, hurl, rfl⟩ |
      ⟨-, url, ⟨rest, hrest, hurl⟩, rfl⟩⟩⟩
    · exact ⟨hafter hurl, trivial⟩
    · exact ⟨hafter hurl, trivial⟩
    · exact ⟨hafter hurl, trivial⟩
    · obtain ⟨same, rfl, hsame⟩ := List.dropSuffix?_eq_some_iff.mp hurl
      refine ⟨?_, rfl⟩
      rw [hafter hrest, eq_of_beq hsame, String.ofList_append, String.ofList_toList,
        String.ofList_toList]
      simp only [Entry.line, locatorOf, String.append_assoc]
  · rintro ⟨rfl, hknows⟩
    exact entryOf_line hknows

theorem follow_line {g : Ledger} {entry : Entry} (hknows : g.Knows entry) :
    g.follow entry.line = g.enter entry := by
  rw [follow, entryOf_line hknows, Option.elim_some]

end Ledger

theorem told_append (events more : List Event) :
    told (events ++ more) = told events ++ told more := by
  rw [told, List.filter_append, List.map_append, told, told]

/-! ## Maps -/

/-- Whether the changes of a map tell no lines of their own. -/
structure IsQuiet (σ : Type) [KeyedMap σ Locator Bookmark] : Prop where
  add : ∀ (s : σ) b, (KeyedMap.add b).Yields s fun _ _ added => told added = []
  remove : ∀ (s : σ) l, (KeyedMap.remove l).Yields s fun _ _ added => told added = []
  removeSame : ∀ (s : σ) b, (KeyedMap.removeSame b).Yields s fun _ _ added => told added = []

theorem isQuiet_memoryMap : IsQuiet (MemoryMap Locator Bookmark) where
  add m b := by
    refine yields_current_bind.mpr ?_
    split
    · exact yields_throw rfl
    · exact yields_change rfl
  remove m l := by
    refine yields_current_bind.mpr ?_
    split
    · exact yields_throw rfl
    · exact yields_change_bind.mpr (yields_pure rfl)
  removeSame m b := by
    refine yields_current_bind.mpr ?_
    split
    · exact yields_pure rfl
    · exact yields_change_bind.mpr (yields_pure rfl)

section

variable {r : RecordDirectory Bookmark Locator}

theorem yields_onDisk {α : Type} (f : Disk → Except FileFault α × Disk) :
    (onDisk f).Yields r fun _ _ added => added = [] :=
  yields_within (yields_stepped rfl)

theorem yields_remove (l : Locator) :
    (RecordDirectory.remove l).Yields r fun _ _ added => told added = [] := by
  refine yields_current_bind.mpr ?_
  split
  · exact yields_pure rfl
  · refine yields_bind (yields_onDisk _) ?_ ?_
    · rintro u after _ rfl
      exact yields_report_bind (yields_change_bind.mpr (yields_pure rfl))
    · rintro fault after _ rfl
      rfl

theorem isQuiet_recordDirectory : IsQuiet (RecordDirectory Bookmark Locator) where
  add r b := by
    change (RecordDirectory.add b).Yields r _
    refine yields_current_bind.mpr (yields_settled_bind ?_ fun _ _ => rfl)
    intro text _
    refine yields_bind (yields_onDisk _) ?_ ?_
    · rintro u after _ rfl
      exact yields_change_bind.mpr (yields_report rfl)
    · rintro fault after _ rfl
      rfl
  remove r l := yields_remove l
  removeSame r b := by
    change (RecordDirectory.removeSame b).Yields r _
    refine yields_current_bind.mpr ?_
    split
    · exact yields_remove _
    · exact yields_pure rfl

end

/-! ## Single calls -/

section

variable {σ : Type} [KeyedMap σ Locator Bookmark] {s after : σ} {l : Locator}

/-- Whether lines that say of a bookmark that it was added or updated are right about what there was
before. -/
def IsTruthful (s : σ) (lines : List String) : Prop :=
  ∀ l, (Entry.line (.added l) ∈ lines → l ∉ locators s) ∧
    (Entry.line (.updated l) ∈ lines → l ∈ locators s)

/-- Whether lines tell which pages there are in one state from those in another one, and are right
about them. -/
structure Tells (s after : σ) (lines : List String) : Prop where
  followed : ∀ g : Ledger,
    g.pages = locators s → (lines.foldl Ledger.follow g).pages = locators after
  truthful : IsTruthful s lines

/-- What is told of a bookmark that was written. -/
def wrote (s : σ) (l : Locator) : Entry := if contains s l then .updated l else .added l

def Entry.IsTrueOf (s : σ) : Entry → Prop
  | .added l => l ∉ locators s
  | .updated l => l ∈ locators s
  | _ => True

theorem wrote_isTrueOf (s : σ) (l : Locator) : (wrote s l).IsTrueOf s := by
  rw [wrote]
  split
  · next hpresent => exact hpresent
  · next habsent => exact habsent

theorem knows_wrote (g : Ledger) (s : σ) (l : Locator) : g.Knows (wrote s l) := by
  rw [wrote]
  split
  · trivial
  · trivial

theorem follow_wrote (g : Ledger) (s : σ) (l : Locator) :
    g.follow (wrote s l).line = ⟨insert l g.pages, l⟩ := by
  rw [Ledger.follow_line (knows_wrote g s l), wrote]
  split
  · rfl
  · rfl

/-- Lines are about one entry each, as far as a reader knows. -/
theorem isTruthful_of_entries {g : Ledger} {entries : List Entry}
    (hentries : ∀ entry ∈ entries, g.Knows entry ∧ entry.IsTrueOf s) :
    IsTruthful s (entries.map Entry.line) := by
  have hread : ∀ {entry}, g.Knows entry → entry.line ∈ entries.map Entry.line →
      entry.IsTrueOf s := by
    intro entry hknows hmem
    obtain ⟨other, hother, hline⟩ := List.mem_map.mp hmem
    obtain ⟨hotherKnows, htrue⟩ := hentries other hother
    have hsame : some other = some entry := by
      rw [← Ledger.entryOf_line hotherKnows, hline, Ledger.entryOf_line hknows]
    rwa [← Option.some.inj hsame]
  exact fun l => ⟨hread trivial, hread trivial⟩

theorem locators_of_same (hsame : ∀ l, get after l = get s l) : locators after = locators s := by
  ext l
  change contains after l = true ↔ contains s l = true
  rw [contains, contains, hsame]

theorem locators_of_put {b : Bookmark} (hput : IsPut b s after) :
    locators after = insert b.locator (locators s) := by
  ext m
  change (KeyedMap.value? after m).isSome = true ↔ m = b.locator ∨ (get s m).isSome = true
  rw [hput m]
  split
  · next hm => simp [hm, Keyed.key]
  · next hm =>
      have hother : m ≠ b.locator := hm
      simp only [hother, false_or]
      rfl

theorem locators_of_taken (htaken : IsTaken l s after) : locators after = locators s \ {l} := by
  ext m
  change (KeyedMap.value? after m).isSome = true ↔ (get s m).isSome = true ∧ m ≠ l
  rw [htaken m]
  split
  · next hm => simp [hm]
  · next hm =>
      simp only [ne_eq, hm, not_false_eq_true, and_true]
      rfl

theorem tells_nothing (hsame : ∀ l, get after l = get s l) : Tells s after [] where
  followed _ hg := hg.trans (locators_of_same hsame).symm
  truthful _ := ⟨nofun, nofun⟩

theorem tells_wrote (hlocators : locators after = insert l (locators s)) :
    Tells s after [(wrote s l).line] where
  followed g hg := by
    rw [List.foldl_cons, List.foldl_nil, follow_wrote, hlocators, hg]
  truthful := by
    have hentries : ∀ entry ∈ [wrote s l], Ledger.Knows ⟨∅, l⟩ entry ∧ entry.IsTrueOf s := by
      simp [knows_wrote, wrote_isTrueOf]
    exact isTruthful_of_entries hentries

theorem tells_removed (hlocators : locators after = locators s \ {l}) :
    Tells s after [Entry.line (.removed l)] where
  followed g hg := by
    have hknows : g.Knows (.removed l) := trivial
    rw [List.foldl_cons, List.foldl_nil, Ledger.follow_line hknows, hlocators, ← hg]
    rfl
  truthful := by
    have hentries : ∀ entry ∈ [Entry.removed l], Ledger.Knows ⟨∅, l⟩ entry ∧ entry.IsTrueOf s := by
      simp [Ledger.Knows, Entry.IsTrueOf]
    exact isTruthful_of_entries hentries

theorem tells_replaced {old : Locator}
    (hlocators : locators after = insert l (locators s) \ {old}) :
    Tells s after [(wrote s l).line, Entry.line (.replaced old l)] where
  followed g hg := by
    have hknows : Ledger.Knows ⟨insert l g.pages, l⟩ (.replaced old l) := rfl
    rw [List.foldl_cons, follow_wrote, List.foldl_cons, List.foldl_nil, Ledger.follow_line hknows,
      hlocators, ← hg]
    rfl
  truthful := by
    have hentries : ∀ entry ∈ [wrote s l, .replaced old l],
        Ledger.Knows ⟨∅, l⟩ entry ∧ entry.IsTrueOf s := by
      refine List.forall_mem_cons.mpr ⟨⟨knows_wrote _ s l, wrote_isTrueOf s l⟩, ?_⟩
      exact List.forall_mem_singleton.mpr ⟨rfl, trivial⟩
    exact isTruthful_of_entries hentries

end

section

variable {σ : Type} [KeyedMap σ Locator Bookmark] {IsSound : σ → Prop} {Same : σ → σ → Prop} {s : σ}
  (h : Reliable IsSound Same) (hquiet : IsQuiet σ) (hs : IsSound s)

include h hquiet hs

theorem add_tells (now : Instant) (b : Bookmark) :
    (add now b).Yields s fun result after added => IsSound after ∧
      ((∃ stored, result = .ok stored ∧ locators after = insert b.locator (locators s) ∧
          told added = [(wrote s b.locator).line]) ∨
        ∃ fault, result = .error fault ∧ Same s after ∧ told added = []) := by
  refine yields_current_bind.mpr (yields_settled_bind ?_ ?_)
  · intro stored hstored
    have hlocator : stored.locator = b.locator := locator_of_changed hstored
    refine yields_bind ((hquiet.add s stored).and_ends (h.add hs)) ?_ ?_
    · rintro u after added ⟨⟨hafter, ⟨-, hput⟩ | ⟨fault, hfault, -⟩⟩, hsilent⟩
      · refine yields_report_bind (yields_pure ⟨hafter, .inl ⟨stored, rfl, ?_, ?_⟩⟩)
        · rw [← hlocator]
          exact locators_of_put hput
        · rw [told_append, hsilent, Bookmark.url, hlocator, wrote, contains]
          cases get s b.locator with
          | none => rfl
          | some existing => rfl
      · cases hfault
    · rintro fault after added ⟨⟨hafter, ⟨hok, -⟩ | ⟨other, -, hsame⟩⟩, hsilent⟩
      · cases hok
      · exact ⟨hafter, .inr ⟨fault, rfl, hsame, hsilent⟩⟩
  · intro fault _
    exact ⟨hs, .inr ⟨fault, rfl, h.refl s, rfl⟩⟩

theorem tells_of_add (now : Instant) (b : Bookmark) :
    (add now b).Yields s fun _ after added => IsSound after ∧ Tells s after (told added) := by
  refine (add_tells h hquiet hs now b).mono ?_
  rintro result after added ⟨hafter, ⟨_, -, hlocators, htold⟩ | ⟨_, -, hsame, htold⟩⟩
  · rw [htold]
    exact ⟨hafter, tells_wrote hlocators⟩
  · rw [htold]
    exact ⟨hafter, tells_nothing (h.same hsame)⟩

theorem visitAt_tells (visited stored : Instant) (l : Locator) :
    (visitAt visited stored l).Yields s fun _ after added =>
      IsSound after ∧ Tells s after (told added) := by
  refine yields_current_bind.mpr ?_
  cases get s l with
  | none => exact yields_pure ⟨hs, tells_nothing fun _ => rfl⟩
  | some found =>
      refine yields_settled_bind ?_ fun _ _ => ⟨hs, tells_nothing fun _ => rfl⟩
      intro b _
      refine yields_bind (tells_of_add h hquiet hs stored b) ?_ fun _ _ _ hafter => hafter
      rintro kept after added hafter
      refine yields_pure ?_
      rwa [List.append_nil]

theorem remove_tells (l : Locator) :
    (remove l).Yields s fun _ after added => IsSound after ∧ Tells s after (told added) := by
  refine yields_bind ((hquiet.remove s l).and_ends (h.remove hs)) ?_ ?_
  · rintro removed after added ⟨⟨hafter, ⟨hok, htaken⟩ | ⟨fault, hfault, -⟩⟩, hsilent⟩
    · cases hok
      cases hfound : KeyedMap.value? s l with
      | none =>
          refine yields_pure ⟨hafter, ?_⟩
          rw [List.append_nil, hsilent]
          refine tells_nothing fun m => (htaken m).trans ?_
          split
          · next hm => rw [hm, get, hfound]
          · rfl
      | some b =>
          have hlocator : b.locator = l := h.keyed hs hfound
          refine yields_report_bind (yields_pure ⟨hafter, ?_⟩)
          rw [told_append, hsilent]
          rw [Bookmark.url, hlocator]
          exact tells_removed (locators_of_taken htaken)
    · cases hfault
  · rintro fault after added ⟨⟨hafter, ⟨hok, -⟩ | ⟨other, -, hsame⟩⟩, hsilent⟩
    · cases hok
    · rw [hsilent]
      exact ⟨hafter, tells_nothing (h.same hsame)⟩

theorem removeSame_tells (b : Bookmark) :
    (removeSame b).Yields s fun _ after added => IsSound after ∧ Tells s after (told added) := by
  refine yields_bind ((hquiet.removeSame s b).and_ends (h.removeSame hs)) ?_ ?_
  · rintro removed after added
      ⟨⟨hafter, ⟨hok, rfl⟩ | ⟨found, hok, hfound, htaken⟩ | ⟨fault, hfault, -⟩⟩, hsilent⟩
    · cases hok
      refine yields_pure ⟨hafter, ?_⟩
      rw [List.append_nil, hsilent]
      exact tells_nothing fun _ => rfl
    · cases hok
      refine yields_report_bind (yields_pure ⟨hafter, ?_⟩)
      rw [told_append, hsilent]
      exact tells_removed (locators_of_taken htaken)
    · cases hfault
  · rintro fault after added ⟨⟨hafter, ⟨hok, -⟩ | ⟨found, hok, -⟩ | ⟨other, -, hsame⟩⟩, hsilent⟩
    · cases hok
    · cases hok
    · rw [hsilent]
      exact ⟨hafter, tells_nothing (h.same hsame)⟩

theorem replace_tells (now : Instant) (old : Locator) (b : Bookmark) :
    (replace now old b).Yields s fun _ after added =>
      IsSound after ∧ Tells s after (told added) := by
  refine yields_bind (add_tells h hquiet hs now b) ?_ ?_
  · rintro stored mid added ⟨hmid, ⟨_, -, hlocators, htold⟩ | ⟨_, hfault, -⟩⟩
    · by_cases hold : b.locator = old
      · simp only [hold, ne_eq, not_true_eq_false, if_false]
        refine yields_pure ⟨hmid, ?_⟩
        rw [List.append_nil, htold]
        exact tells_wrote hlocators
      · simp only [ne_eq, hold, not_false_eq_true, if_true]
        refine yields_bind ((hquiet.remove mid old).and_ends (h.remove hmid)) ?_ ?_
        · rintro removed after more ⟨⟨hafter, ⟨-, htaken⟩ | ⟨fault, hfault, -⟩⟩, hsilent⟩
          · refine yields_report_bind (yields_pure ⟨hafter, ?_⟩)
            rw [told_append, told_append, htold, hsilent]
            refine tells_replaced ?_
            rw [locators_of_taken htaken, hlocators]
          · cases hfault
        · rintro fault after more ⟨⟨hafter, ⟨hok, -⟩ | ⟨_, -, hsame⟩⟩, hsilent⟩
          · cases hok
          · rw [told_append, htold, hsilent]
            refine ⟨hafter, tells_wrote ?_⟩
            rw [locators_of_same (h.same hsame), hlocators]
    · cases hfault
  · rintro fault after added ⟨hafter, ⟨_, hok, -⟩ | ⟨_, -, hsame, htold⟩⟩
    · cases hok
    · rw [htold]
      exact ⟨hafter, tells_nothing (h.same hsame)⟩

theorem perform_tells (clock : Nat → Instant) (call : Call) :
    (call.perform clock).Yields s fun _ after added =>
      IsSound after ∧ Tells s after (told added) := by
  cases call with
  | add b =>
      refine yields_bind (tells_of_add h hquiet hs (clock 0) b) ?_ fun _ _ _ hafter => hafter
      rintro stored after added hafter
      refine yields_pure ?_
      rwa [List.append_nil]
  | remove l => exact remove_tells h hquiet hs l
  | removeSame b => exact removeSame_tells h hquiet hs b
  | replace old b =>
      refine yields_bind (replace_tells h hquiet hs (clock 0) old b) ?_ fun _ _ _ hafter => hafter
      rintro stored after added hafter
      refine yields_pure ?_
      rwa [List.append_nil]
  | visit l => exact visitAt_tells h hquiet hs (clock 0) (clock 1) l
  | get l => exact yields_current_bind.mpr (yields_pure ⟨hs, tells_nothing fun _ => rfl⟩)

end

/-! ## Calls in sequence -/

section

variable {σ : Type} [KeyedMap σ Locator Bookmark]

/-- The lines that a call tells. -/
def Performed.lines (p : Performed σ) : List String :=
  told ((p.call.perform p.clock).execute p.before).2.events

/-- The lines that the calls of a history tell, in their order. -/
def journal (log : List (Performed σ)) : List String := log.flatMap (·.lines)

/-- Whether what is told from a state on is a faithful journal: the pages in the store after any
calls are those that its lines lead to from the pages there were, and a page is said to be added
only if it was not there before, and to be updated only if it was. -/
structure TellsAll (Refusing : σ → σ → Prop) (s : σ) : Prop where
  followed : ∀ {log last}, IsHistory Refusing s log last →
    pagesAfter (locators s) (journal log) = locators last
  truthful : ∀ {log last}, IsHistory Refusing s log last →
    ∀ p ∈ log, IsTruthful p.before p.lines

variable {IsSound : σ → Prop} {Same Refusing : σ → σ → Prop} {s last : σ} {p : Performed σ}
  {log : List (Performed σ)}

theorem Performed.tells (h : Reliable IsSound Same) (hquiet : IsQuiet σ) (hs : IsSound p.before)
    (hrun : p.IsRun) : IsSound p.after ∧ Tells p.before p.after p.lines := by
  obtain ⟨s, call, clock, result, after⟩ := p
  obtain ⟨events, hrun⟩ := hrun
  have htells := (perform_tells h hquiet hs clock call).execute
  rw [Performed.lines]
  dsimp only at hrun htells ⊢
  rw [hrun] at htells ⊢
  exact htells

/-- A reader who knows the pages there are before some calls knows those there are after them. -/
theorem followed_of_history (h : Reliable IsSound Same) (hquiet : IsQuiet σ)
    (hharmless : IsHarmless IsSound Refusing) (hlog : IsHistory Refusing s log last)
    (hs : IsSound s) {g : Ledger} (hg : g.pages = locators s) :
    ((journal log).foldl Ledger.follow g).pages = locators last := by
  induction hlog generalizing g with
  | nil s => exact hg
  | cons hrefusing hrun _ ih =>
      obtain ⟨hafter, htells⟩ := Performed.tells h hquiet (hharmless.sound hrefusing hs) hrun
      have hbefore := hg.trans (locators_of_same (hharmless.same hrefusing)).symm
      rw [journal, List.flatMap_cons, List.foldl_append]
      exact ih hafter (htells.followed g hbefore)

theorem truthful_of_history (h : Reliable IsSound Same) (hquiet : IsQuiet σ)
    (hharmless : IsHarmless IsSound Refusing) (hlog : IsHistory Refusing s log last)
    (hs : IsSound s) : ∀ p ∈ log, IsTruthful p.before p.lines := by
  induction hlog with
  | nil s => simp
  | cons hrefusing hrun _ ih =>
      obtain ⟨hafter, htells⟩ := Performed.tells h hquiet (hharmless.sound hrefusing hs) hrun
      exact List.forall_mem_cons.mpr ⟨htells.truthful, ih hafter⟩

theorem tellsAll_of_reliable (h : Reliable IsSound Same) (hquiet : IsQuiet σ)
    (hharmless : IsHarmless IsSound Refusing) (hs : IsSound s) : TellsAll Refusing s where
  followed hlog := followed_of_history h hquiet hharmless hlog hs rfl
  truthful hlog := truthful_of_history h hquiet hharmless hlog hs

end

/-- Every store tells all that happens to it, whether its directory was opened or it is in memory,
whichever calls are made and whichever of their changes fail. -/
theorem tells_all :
    (∀ {clock : Nat → Instant} {p : Path} {d : Disk} {opened : RecordDirectory Bookmark Locator},
      ((load clock p).execute d).1 = .ok opened → TellsAll DeviceRefuses opened) ∧
    ∀ {m : MemoryMap Locator Bookmark}, IsReachedInMemory m → TellsAll MapRefuses m := by
  constructor
  · intro clock p d opened hopened
    exact tellsAll_of_reliable (reliable p) isQuiet_recordDirectory (isHarmless_device p)
      ((load_isSoundAt clock p d).execute.1 opened hopened)
  · intro m hreached
    exact tellsAll_of_reliable MemoryMap.reliable isQuiet_memoryMap isHarmless_map
      hreached.isSound

/-- A page is added, and then replaced with another one while no file can be removed. -/
def lockedLog (opened : RecordDirectory Bookmark Locator) :
    List (Performed (RecordDirectory Bookmark Locator)) :=
  let added := Performed.ofCall opened (.add (samplePage "http://a.org/")) noon
  let locked := { added.after with disk := { added.after.disk with refusal? := refuseRemovals } }
  [added, .ofCall locked (.replace ⟨"http://a.org/"⟩ (samplePage "http://b.org/")) noon]

theorem lockedLog_isHistory (opened : RecordDirectory Bookmark Locator) :
    ∃ last, IsHistory DeviceRefuses opened (lockedLog opened) last :=
  ⟨_, .ofCall (deviceRefuses_refl opened) (.ofCall ⟨refuseRemovals, rfl⟩ (.nil _))⟩

/-- A page that cannot be removed is still told to be there, along with the one that was to take its
place. -/
theorem tells_all_lockedStore :
    (∃ opened last,
      ((load (fun _ => noon) (.ofParts ["shelf"])).execute sampleDisk).1 = .ok opened ∧
      IsHistory DeviceRefuses opened (lockedLog opened) last ∧
      locators last =
        pagesAfter (locators opened) ["Added http://a.org/", "Added http://b.org/"]) ∧
    TellsAll MapRefuses ((migrate fun _ => noon).execute pageInMemory).2.state := by
  obtain ⟨hdirectory, hmemory⟩ := tells_all
  refine ⟨?_, hmemory pageInMemory_isReached⟩
  have hrun : (((load (fun _ => noon) (.ofParts ["shelf"])).execute sampleDisk).1.toOption.map
      fun opened => journal (lockedLog opened)) =
        some ["Added http://a.org/", "Added http://b.org/"] := by
    decide +kernel
  obtain ⟨opened, hopened, hjournal⟩ := Option.map_eq_some_iff.mp hrun
  obtain ⟨last, hlog⟩ := lockedLog_isHistory opened
  rw [toOption_eq_some] at hopened
  refine ⟨opened, last, hopened, hlog, ?_⟩
  rw [← hjournal]
  exact ((hdirectory hopened).followed hlog).symm

end LinkShelf.Store
