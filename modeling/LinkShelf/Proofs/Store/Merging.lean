import LinkShelf.Proofs.Storage.Edits
import LinkShelf.Proofs.Store.Migration
import LinkShelf.Proofs.Store.Shelf
import Mathlib.Data.List.Induction

/-!
Bookmarks that are put into a store one after the other. Main statements: a locator then has the
last bookmark that was given for it, which was created when that was said last, or else when the
stored one was (`value?_merged`); each bookmark is written unless a step on the disk fails
(`add_stamps`); and once all are written, the record files are those of the store (`Merges.follows`).
-/

namespace LinkShelf

open Operation RecordDirectory

namespace Bookmark

variable {b : Bookmark}

/-- A bookmark as a store keeps it: it was created when it says, or else when the one in its place
was, or else now. -/
def stamped (b : Bookmark) (existing : Option Bookmark) (now : Instant) : Bookmark :=
  { b with
    created := some (b.created.getD ((existing.bind (·.created)).getD now))
    modified := some (b.modified.getD now) }

theorem changed_missingTimes_stamped (hb : b.checked = .ok b) (existing : Option Bookmark)
    (now : Instant) :
    Store.changed b (Store.missingTimes b existing now) = .ok (b.stamped existing now) := by
  have hstamped : (b.stamped existing now).checked = .ok (b.stamped existing now) := by
    rw [checked_iff] at hb ⊢
    exact hb
  obtain ⟨locator, title, notes, image, tags, color, created, modified, lastVisited, count⟩ := b
  cases created with
  | none => cases modified <;> exact hstamped
  | some made =>
      cases modified with
      | none => exact hstamped
      | some time => rfl

end Bookmark

namespace Store

variable {now : Instant} {entries : Entries Locator Bookmark} {bookmarks rest : List Bookmark}
  {b : Bookmark} {key : Locator}

/-! ## In memory -/

/-- Entries with one more bookmark. -/
def withAdded (now : Instant) (entries : Entries Locator Bookmark) (b : Bookmark) :
    Entries Locator Bookmark :=
  entries.put b.locator (b.stamped (entries.value? b.locator) now)

/-- Entries with some more bookmarks, one after the other. -/
def merged (now : Instant) (entries : Entries Locator Bookmark) (bookmarks : List Bookmark) :
    Entries Locator Bookmark :=
  bookmarks.foldl (withAdded now) entries

def keysOf (bookmarks : List Bookmark) : List Locator := bookmarks.map (·.locator)

/-- The bookmarks that are given for a locator, in order. -/
def givenFor (bookmarks : List Bookmark) (key : Locator) : List Bookmark :=
  bookmarks.filter fun b => b.locator = key

/-- When a bookmark counts as created: at the moment that is given last, or else when the stored one
was, or else now. -/
def createdAmong (given : List Bookmark) (stored? : Option Bookmark) (now : Instant) : Instant :=
  (given.reverse.findSome? (·.created)).getD ((stored?.bind (·.created)).getD now)

/-- What is stored in the place of a bookmark once some others were given for it: the last one. -/
def lastOf (given : List Bookmark) (stored? : Option Bookmark) (now : Instant) :
    Option Bookmark :=
  match given.getLast? with
  | none => stored?
  | some b => some { b with
      created := some (createdAmong given stored? now)
      modified := some (b.modified.getD now) }

theorem createdAmong_concat (given : List Bookmark) (b : Bookmark) (stored? : Option Bookmark) :
    createdAmong (given ++ [b]) stored? now =
      b.created.getD (createdAmong given stored? now) := by
  rw [createdAmong, createdAmong, List.reverse_concat, List.findSome?_cons]
  cases b.created <;> rfl

/-- What is stored tells when the next one counts as created. -/
theorem created_lastOf (given : List Bookmark) (stored? : Option Bookmark) :
    ((lastOf given stored? now).bind (·.created)).getD now = createdAmong given stored? now := by
  cases hlast : given.getLast? with
  | none =>
      obtain rfl := List.getLast?_eq_none_iff.mp hlast
      rfl
  | some b =>
      rw [lastOf, hlast]
      rfl

theorem lastOf_concat (given : List Bookmark) (b : Bookmark) (stored? : Option Bookmark) :
    lastOf (given ++ [b]) stored? now = some (b.stamped (lastOf given stored? now) now) := by
  rw [lastOf, List.getLast?_concat, createdAmong_concat, Bookmark.stamped, created_lastOf]

theorem merged_concat (bookmarks : List Bookmark) (b : Bookmark) :
    merged now entries (bookmarks ++ [b]) = withAdded now (merged now entries bookmarks) b :=
  List.foldl_concat (withAdded now) entries b bookmarks

/-- A locator has what was given for it last. -/
theorem value?_merged :
    (merged now entries bookmarks).value? key =
      lastOf (givenFor bookmarks key) (entries.value? key) now := by
  -- from the end of the list, as each bookmark is stamped by what those before it have left
  induction bookmarks using List.reverseRecOn with
  | nil => rfl
  | append_singleton front b ih =>
      rw [merged_concat, withAdded, Entries.value?_put_eq_ite, givenFor, List.filter_append]
      by_cases hkey : b.locator = key
      · subst hkey
        rw [if_pos rfl, List.filter_cons_of_pos (by simp), List.filter_nil]
        exact (congrArg (fun held => some (b.stamped held now)) ih).trans
          (lastOf_concat _ b _).symm
      · rw [if_neg (Ne.symm hkey), List.filter_cons_of_neg (by simpa using hkey), List.filter_nil,
          List.append_nil]
        exact ih

@[simp] theorem keysOf_cons (b : Bookmark) (rest : List Bookmark) :
    keysOf (b :: rest) = b.locator :: keysOf rest := rfl

theorem mem_givenFor : b ∈ givenFor bookmarks key ↔ b ∈ bookmarks ∧ b.locator = key := by
  simp [givenFor]

theorem givenFor_of_not_mem (hkey : key ∉ keysOf bookmarks) : givenFor bookmarks key = [] := by
  refine List.eq_nil_iff_forall_not_mem.mpr fun b hb => hkey ?_
  obtain ⟨hmem, rfl⟩ := mem_givenFor.mp hb
  exact List.mem_map_of_mem hmem

theorem value?_merged_of_not_mem (hkey : key ∉ keysOf bookmarks) :
    (merged now entries bookmarks).value? key = entries.value? key := by
  rw [value?_merged, givenFor_of_not_mem hkey]
  rfl

variable (now entries) in
/-- Under a locator that some bookmark was given for, one of those is stored. -/
theorem exists_value?_merged (hkey : key ∈ keysOf bookmarks) :
    ∃ b ∈ bookmarks, ∃ existing, b.locator = key ∧
      (merged now entries bookmarks).value? key = some (b.stamped existing now) := by
  obtain ⟨given, hgiven, hlocator⟩ := List.mem_map.mp hkey
  have hne : givenFor bookmarks key ≠ [] :=
    List.ne_nil_of_mem (mem_givenFor.mpr ⟨hgiven, hlocator⟩)
  have hsplit := List.dropLast_append_getLast hne
  obtain ⟨hmem, hlast⟩ := mem_givenFor.mp (List.getLast_mem hne)
  have hvalue : (merged now entries bookmarks).value? key =
      lastOf (givenFor bookmarks key) (entries.value? key) now := value?_merged
  rw [← hsplit, lastOf_concat] at hvalue
  exact ⟨_, hmem, _, hlast, hvalue⟩

/-! ## In a directory -/

section

variable {r mid after : RecordDirectory Bookmark Locator} {l : Location}

/-- A bookmark that can be written is put into the store with its times, unless a step on the disk
fails, and then nothing has changed. -/
theorem add_stamps (hlies : LiesAt r.disk r.path l) (hb : b.checked = .ok b) {text : String}
    (htext : recordText b = .ok text) (now : Instant) :
    (add now b).Ends r fun result after => LiesAt after.disk after.path l ∧
      ((∃ stored, result = .ok stored ∧
          Edited r b.locator (withAdded now r.entries b) after) ∨
        ∃ fault, result = .error fault ∧ fault.isFileFault = true) := by
  have hchanged := Bookmark.changed_missingTimes_stamped hb (get r b.locator) now
  obtain ⟨other, hother⟩ := Bookmark.exists_recordText_withTimes htext
    (b.stamped (get r b.locator) now).created (b.stamped (get r b.locator) now).modified
  have hadd := (RecordDirectory.add_ends hlies (b.stamped (get r b.locator) now)).and
    (RecordDirectory.add_isFileFault hlies hother)
  refine ends_current_bind.mpr ?_
  simp only [hchanged]
  refine ends_settled_ok_bind.mpr (ends_bind hadd ?_ ?_)
  · rintro u after ⟨⟨hafter, ⟨-, hedited⟩ | ⟨fault, hfault, -⟩⟩, -⟩
    · exact ends_report_bind (ends_pure.mpr ⟨hafter, .inl ⟨_, rfl, hedited⟩⟩)
    · cases hfault
  · rintro fault after ⟨⟨hafter, -⟩, hkind⟩
    exact ⟨hafter, .inr ⟨fault, rfl, hkind fault rfl⟩⟩

/-- Where nothing is in the way, it is put there. -/
theorem add_of_recordText (hfree : IsFree r.path l r.disk) (hb : b.checked = .ok b) {text : String}
    (htext : recordText b = .ok text) (now : Instant) :
    (add now b).Ends r fun result after =>
      (∃ stored, result = .ok stored) ∧ IsFree after.path l after.disk := by
  have hchanged := Bookmark.changed_missingTimes_stamped hb (get r b.locator) now
  obtain ⟨other, hother⟩ := Bookmark.exists_recordText_withTimes htext
    (b.stamped (get r b.locator) now).created (b.stamped (get r b.locator) now).modified
  refine ends_current_bind.mpr ?_
  simp only [hchanged]
  refine ends_settled_ok_bind.mpr
    (ends_bind (RecordDirectory.add_of_isFree hfree hother) ?_ ?_)
  · rintro u after ⟨-, hafter⟩
    exact ends_report_bind (ends_pure.mpr ⟨⟨_, rfl⟩, hafter⟩)
  · rintro fault after ⟨hfault, -⟩
    cases hfault

/-- How a directory follows from another one when bookmarks are put into it, one after the other. -/
structure Merges (now : Instant) (bookmarks : List Bookmark)
    (r after : RecordDirectory Bookmark Locator) : Prop where
  path : after.path = r.path
  entries : after.entries = merged now r.entries bookmarks
  names : ∀ n, n ∈ recordNames after.disk r.path ↔
    n ∈ (keysOf bookmarks).map (nameOf Bookmark) ∨ n ∈ recordNames r.disk r.path
  /-- No other file is touched. -/
  kept : ∀ n, isRecordName n = true → n ∉ (keysOf bookmarks).map (nameOf Bookmark) →
    bytesAt? after.disk r.path n = bytesAt? r.disk r.path n
  /-- The file of a locator, unless it is that of another one as well, holds what is stored. -/
  written : ∀ key ∈ keysOf bookmarks,
    (∀ k ∈ keysOf bookmarks, nameOf Bookmark k = nameOf Bookmark key → k = key) →
    ∃ stored text, after.entries.value? key = some stored ∧ recordText stored = .ok text ∧
      bytesAt? after.disk r.path (nameOf Bookmark key) = some text.toUTF8

namespace Merges

theorem nil : Merges now [] r r where
  path := rfl
  entries := rfl
  names _ := by simp [keysOf]
  kept _ _ _ := rfl
  written := nofun

theorem cons (hedited : Edited r b.locator (withAdded now r.entries b) mid)
    (h : Merges now rest mid after) : Merges now (b :: rest) r after := by
  obtain ⟨hpath, hentries, content?, hfiles, hholds⟩ := hedited
  have hnames := h.names
  have hkept := h.kept
  have hwritten := h.written
  rw [hpath] at hnames hkept hwritten
  have hstored : (withAdded now r.entries b).value? b.locator =
      some (b.stamped (r.entries.value? b.locator) now) := Entries.value?_put_self ..
  obtain ⟨stored, text, hvalue, htext, rfl⟩ | ⟨hnone, -⟩ := hholds
  · constructor
    · rw [h.path, hpath]
    · rw [h.entries, hentries]
      rfl
    · intro n
      rw [hnames, hfiles.names, keysOf_cons, List.map_cons, List.mem_cons]
      by_cases hn : n = nameOf Bookmark b.locator
      · simp [hn]
      · simp [hn]
    · intro n hname hn
      rw [keysOf_cons, List.map_cons, List.mem_cons, not_or] at hn
      rw [hkept n hname hn.2, hfiles.bytes n hname, if_neg hn.1]
    · rw [keysOf_cons]
      intro key hkey hapart
      by_cases hlater : key ∈ keysOf rest
      · exact hwritten key hlater fun k hk => hapart k (List.mem_cons_of_mem _ hk)
      -- what is stored of the first one stays where nothing later has its locator or its file
      · obtain rfl := (List.mem_cons.mp hkey).resolve_right hlater
        have hfile : nameOf Bookmark b.locator ∉ (keysOf rest).map (nameOf Bookmark) := by
          intro hmem
          obtain ⟨k, hk, hname⟩ := List.mem_map.mp hmem
          exact hlater (hapart k (List.mem_cons_of_mem _ hk) hname ▸ hk)
        have hshown := isRecordName_nameOf (V := Bookmark) b.locator
        refine ⟨stored, text, ?_, htext, ?_⟩
        · rw [h.entries, value?_merged_of_not_mem hlater, hentries, hvalue]
        · rw [hkept _ hshown hfile, hfiles.bytes _ hshown, if_pos rfl]
  · cases hstored.symm.trans hnone

theorem congr (h : Merges now bookmarks r after) {d other : Disk}
    (hbefore : SameFiles r.path d r.disk) (hafter : SameFiles r.path after.disk other) :
    Merges now bookmarks { r with disk := d } { after with disk := other } where
  path := h.path
  entries := h.entries
  names n := by
    dsimp only
    rw [hafter.names, h.names, hbefore.names]
  kept n hname hn := by
    dsimp only
    rw [hafter.bytes n hname, h.kept n hname hn, hbefore.bytes n hname]
  written key hkey hapart := by
    dsimp only
    rw [hafter.bytes _ (isRecordName_nameOf key)]
    exact h.written key hkey hapart

variable (h : Merges now bookmarks r after) (hopened : IsOpened l r)
  (hlossless : ∀ key ∈ keysOf bookmarks, ∀ v, after.entries.value? key = some v → Lossless v)
  (hapart : ∀ k ∈ keysOf bookmarks, ∀ m ∈ keysOf bookmarks,
    nameOf Bookmark k = nameOf Bookmark m → k = m)

include h

theorem keyed (hopened : IsOpened l r) {v : Bookmark} (hv : after.entries.value? key = some v) :
    Keyed.key v = key := by
  rw [h.entries] at hv
  by_cases hkey : key ∈ keysOf bookmarks
  · obtain ⟨b, -, existing, hb, hvalue⟩ := exists_value?_merged now r.entries hkey
    rw [← Option.some.inj (hvalue.symm.trans hv)]
    exact hb
  · rw [value?_merged_of_not_mem hkey] at hv
    exact hopened.follows.keyed key v hv

include hlossless hapart in
theorem exists_readRecord (hkey : key ∈ keysOf bookmarks) : ∃ stored,
    after.entries.value? key = some stored ∧
      readRecord after.disk (r.path.child (nameOf Bookmark key)) = .ok stored := by
  obtain ⟨stored, text, hvalue, htext, hbytes⟩ := h.written key hkey fun k hk => hapart k hk _ hkey
  exact ⟨stored, hvalue, readRecord_eq_ok.mpr
    ⟨_, hbytes, hlossless _ hkey stored hvalue text htext⟩⟩

include hopened hlossless hapart

/-- The record files are those of the store, if the files of the bookmarks are read as they were
written, and no two of their locators share one. -/
theorem follows : Follows (records Bookmark r.disk r.path) (keysOf bookmarks) after := by
  have hread {key : Locator} (hkey : key ∈ keysOf bookmarks) :=
    h.exists_readRecord hlossless hapart hkey
  constructor
  · intro n hn
    rw [h.path] at hn ⊢
    by_cases hmem : n ∈ (keysOf bookmarks).map (nameOf Bookmark)
    · obtain ⟨key, hkey, rfl⟩ := List.mem_map.mp hmem
      obtain ⟨stored, -, hstored⟩ := hread hkey
      intro fault hfault
      cases hstored.symm.trans hfault
    · exact isHandled_congr (h.kept n (isRecordName_of_mem hn) hmem)
        (hopened.handled n (((h.names n).mp hn).resolve_left hmem))
  · intro n v
    rw [h.path, mem_records_iff_mem, h.names]
    split
    · next hmem =>
        constructor
        · rintro ⟨-, hv⟩
          obtain ⟨key, hkey, rfl⟩ := List.mem_map.mp hmem
          obtain ⟨stored, hvalue, hstored⟩ := hread hkey
          cases hstored.symm.trans hv
          exact ⟨key, hkey, rfl, hvalue⟩
        · rintro ⟨key, hkey, rfl, hv⟩
          obtain ⟨stored, hvalue, hstored⟩ := hread hkey
          cases hvalue.symm.trans hv
          exact ⟨.inl hmem, hstored⟩
    · next hmem =>
        rw [or_iff_right hmem, mem_records_iff_mem]
        refine and_congr_right fun hn => ?_
        rw [readRecord_eq_ok, readRecord_eq_ok, h.kept n (isRecordName_of_mem hn) hmem]
  · intro key hkey
    rw [h.entries, value?_merged_of_not_mem hkey]
    exact hopened.values key
  · exact fun key v hv => h.keyed hopened hv

/-- Where files have the names of their locators, and none of these shares its file with one of the
bookmarks, the store is opened again as it was. -/
theorem exists_load {k : Location} (hlies : LiesAt after.disk r.path k)
    (hdated : ∀ f ∈ records Bookmark r.disk r.path, f.2.isComplete = true)
    (hnamed : ∀ f ∈ records Bookmark r.disk r.path, f.1 = nameOf Bookmark f.2.locator)
    (hother : ∀ key ∈ keysOf bookmarks, ∀ f ∈ records Bookmark r.disk r.path,
      nameOf Bookmark key = nameOf Bookmark f.2.locator → key = f.2.locator) :
    ∃ fresh, (∀ clock, ((load clock r.path).execute after.disk).1 = .ok fresh) ∧
      ∀ key, get fresh key = get after key := by
  have hfollows := h.follows hopened hlossless hapart
  have hhandled := hfollows.handled
  have hheld := hfollows.lastHeld?_eq_iff (inOrder_records r.disk r.path)
  have hmem := hfollows.records
  rw [h.path] at hhandled hheld hmem
  have hcomplete : ∀ f ∈ records Bookmark after.disk r.path,
      f.2.created.isSome = true ∧ f.2.modified.isSome = true := by
    rintro ⟨n, b⟩ hf
    rw [hmem] at hf
    split at hf
    · obtain ⟨key, hkey, -, hvalue⟩ := hf
      obtain ⟨given, -, existing, -, hstored⟩ := exists_value?_merged now r.entries hkey
      rw [h.entries, hstored] at hvalue
      rw [← Option.some.inj hvalue]
      exact ⟨rfl, rfl⟩
    · exact Bool.and_eq_true_iff.mp (hdated _ hf)
  obtain ⟨fresh, -, -, hvalues, hload⟩ := exists_load_of_dated hlies hhandled hcomplete
  refine ⟨fresh, fun clock => (hload clock).1, fun key => (hvalues key).trans ?_⟩
  exact (hheld key).mpr (survives_of_named hnamed hother _)

end Merges

end

end Store

end LinkShelf
