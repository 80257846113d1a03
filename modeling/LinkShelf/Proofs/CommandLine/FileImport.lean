import LinkShelf.Proofs.Bookmark.ReadRecords
import LinkShelf.Proofs.CommandLine.Addition
import LinkShelf.Proofs.Store.Merging
import Mathlib.Data.List.Forall2

/-!
Files of any bytes that are imported. Main statement: a run whose file lists no bookmarks ends with
a failure and changes no record file; any other run on a shelf leaves the shelf as it was with the
bookmarks of the file put into it in their order, unless a record cannot be written
(`import_merges`).
-/

namespace LinkShelf

open Operation RecordDirectory

variable {content : ByteArray} {bookmarks : List Bookmark}

/-! ## What a file lists -/

/-- Whether the bytes of a file are a text of JSON that has items, which are the records of some
bookmarks. -/
inductive Lists (content : ByteArray) (bookmarks : List Bookmark) : Prop where
  | intro {text : String} {v : Json} {records : List Json}
      (htext : Text.decodeLines content = .ok text) (hvalue : Json.read text = .ok v)
      (hitems : v.items = .ok records)
      (hrecords : List.Forall₂ (fun record b => Bookmark.ofRecord record = .ok b) records bookmarks)

/-- Whether the bytes of a file are no text, the text is none of JSON, its value has no items, or
one of the items is not the record of a bookmark, for whatever reason. -/
inductive ListsNone (content : ByteArray) : Prop where
  | text {fault : EncodingFault} (htext : Text.decodeLines content = .error fault)
  | json {text : String} {fault : Json.ReadError} (htext : Text.decodeLines content = .ok text)
      (hvalue : Json.read text = .error fault)
  | items {text : String} {v : Json} {fault : Failure}
      (htext : Text.decodeLines content = .ok text) (hvalue : Json.read text = .ok v)
      (hitems : v.items = .error fault)
  | record {text : String} {v record : Json} {records : List Json} {fault : Failure}
      (htext : Text.decodeLines content = .ok text) (hvalue : Json.read text = .ok v)
      (hitems : v.items = .ok records) (hmem : record ∈ records)
      (hrecord : Bookmark.ofRecord record = .error fault)

theorem mapM_eq_ok_iff_forall₂ {ε α β : Type} {f : α → Except ε β} {items : List α}
    {values : List β} :
    items.mapM f = .ok values ↔ List.Forall₂ (fun a b => f a = .ok b) items values := by
  induction items generalizing values with
  | nil => simp [pure, Except.pure, eq_comm]
  | cons a rest ih =>
      simp only [List.mapM_cons, bind_eq_ok, ih, List.forall₂_cons_left_iff]
      constructor
      · rintro ⟨b, hb, more, hmore, hvalues⟩
        exact ⟨b, more, hb, hmore, (Except.ok.inj hvalues).symm⟩
      · rintro ⟨b, more, hb, hmore, rfl⟩
        exact ⟨b, hb, more, hmore, rfl⟩

/-- The import reads the bookmarks that a file lists. -/
theorem bookmarksOf_eq_ok_iff :
    Command.bookmarksOf content = .ok bookmarks ↔ Lists content bookmarks := by
  constructor
  · intro hbookmarks
    rw [Command.bookmarksOf] at hbookmarks
    split at hbookmarks
    · cases hbookmarks
    · next text htext =>
        split at hbookmarks
        · cases hbookmarks
        · next v hvalue =>
            obtain ⟨records, hitems, hrecords⟩ := bind_eq_ok.mp hbookmarks
            exact ⟨htext, hvalue, hitems, mapM_eq_ok_iff_forall₂.mp hrecords⟩
  · rintro ⟨htext, hvalue, hitems, hrecords⟩
    simp only [Command.bookmarksOf, htext, hvalue, hitems, ok_bind]
    exact mapM_eq_ok_iff_forall₂.mpr hrecords

theorem ListsNone.exists_fault (h : ListsNone content) :
    ∃ fault, Command.bookmarksOf content = .error fault := by
  cases h with
  | @text fault htext => exact ⟨.encoding fault, by rw [Command.bookmarksOf, htext]⟩
  | @json text fault htext hvalue =>
      exact ⟨.json fault, by simp only [Command.bookmarksOf, htext, hvalue]⟩
  | @items text v fault htext hvalue hitems =>
      exact ⟨fault, by simp only [Command.bookmarksOf, htext, hvalue, hitems, error_bind]⟩
  | @record text v record records fault htext hvalue hitems hmem hrecord =>
      simp only [Command.bookmarksOf, htext, hvalue, hitems, ok_bind]
      cases hall : records.mapM Bookmark.ofRecord with
      | error first => exact ⟨first, rfl⟩
      | ok read =>
          obtain ⟨b, hb⟩ := (mapM_eq_ok_iff.mp hall).1 record hmem
          cases hrecord.symm.trans hb

/-- A file that lists no bookmarks is read as none for one of these reasons. -/
theorem listsNone_of_error {fault : Failure} (h : Command.bookmarksOf content = .error fault) :
    ListsNone content := by
  rw [Command.bookmarksOf] at h
  split at h
  · next htext => exact .text htext
  · next text htext =>
      split at h
      · next hvalue => exact .json htext hvalue
      · next v hvalue =>
          cases hitems : v.items with
          | error fault => exact .items htext hvalue hitems
          | ok records =>
              rw [hitems, ok_bind] at h
              obtain ⟨front, record, back, rfl, -, hrecord⟩ := mapM_eq_error_iff.mp h
              exact .record htext hvalue hitems (by simp) hrecord

/-- A file lists some bookmarks, which may be none of them, or it fails to. -/
theorem listsNone_iff : ListsNone content ↔ ¬ ∃ bookmarks, Lists content bookmarks := by
  constructor
  · rintro hnone ⟨bookmarks, hlists⟩
    obtain ⟨fault, hfault⟩ := hnone.exists_fault
    cases hfault.symm.trans (bookmarksOf_eq_ok_iff.mpr hlists)
  · intro hnone
    cases hread : Command.bookmarksOf content with
    | error fault => exact listsNone_of_error hread
    | ok bookmarks => exact absurd ⟨bookmarks, bookmarksOf_eq_ok_iff.mp hread⟩ hnone

/-- What a file lists can be written. -/
theorem Lists.exists_recordText (h : Lists content bookmarks) :
    ∀ b ∈ bookmarks, b.checked = .ok b ∧ ∃ text, recordText b = .ok text := by
  obtain ⟨-, hvalue, hitems, hrecords⟩ := h
  intro b hb
  obtain ⟨-, rfl⟩ := mapM_eq_ok_iff.mp (mapM_eq_ok_iff_forall₂.mpr hrecords)
  obtain ⟨record, hmem, hread⟩ := List.mem_filterMap.mp hb
  have hrecord := toOption_eq_some.mp hread
  obtain ⟨hreadable, hsize⟩ := (Json.isListable_of_read hvalue).of_mem_items hitems hmem
  exact ⟨(Bookmark.isDecoded_of_ofRecord hrecord).checked,
    Bookmark.exists_recordText_of_ofRecord hreadable hsize hrecord⟩

/-! ## Additions -/

namespace Command

variable {r : RecordDirectory Bookmark Locator} {l : Location} {now : Instant}
  (hbookmarks : ∀ b ∈ bookmarks, b.checked = .ok b ∧ ∃ text, recordText b = .ok text)

include hbookmarks

variable (now) in
/-- Bookmarks that can be written are put into a store one after the other, unless a step on the
disk fails. -/
theorem addAll_merges (hlies : LiesAt r.disk r.path l) :
    (addAll now bookmarks).Ends r fun result after =>
      (result = .ok ⟨⟩ ∧ LiesAt after.disk after.path l ∧ Store.Merges now bookmarks r after) ∨
        ∃ fault, result = .error fault ∧ fault.isFileFault = true := by
  induction bookmarks generalizing r with
  | nil => exact ends_pure.mpr (.inl ⟨rfl, hlies, .nil⟩)
  | cons b rest ih =>
      obtain ⟨⟨hchecked, text, htext⟩, hrest⟩ := List.forall_mem_cons.mp hbookmarks
      refine ends_addAll_cons (Store.add_stamps hlies hchecked htext now) ?_ ?_
      · rintro stored mid ⟨hmid, ⟨-, -, hedited⟩ | ⟨fault, hfault, -⟩⟩
        · refine Ends.mono (ih hrest hmid) ?_
          rintro result after (⟨hresult, hafter, hmerges⟩ | hfault)
          · exact .inl ⟨hresult, hafter, hmerges.cons hedited⟩
          · exact .inr hfault
        · cases hfault
      · rintro fault after ⟨-, ⟨stored, hstored, -⟩ | ⟨_, ⟨⟩, hkind⟩⟩
        · cases hstored
        · exact .inr ⟨fault, rfl, hkind⟩

/-- Nothing keeps them from being put there where nothing is in the way. -/
theorem addAll_of_isFree (h : IsFree r.path l r.disk) :
    (addAll now bookmarks).Ends r fun result _ => result = .ok ⟨⟩ := by
  induction bookmarks generalizing r with
  | nil => exact ends_pure.mpr rfl
  | cons b rest ih =>
      obtain ⟨⟨hchecked, text, htext⟩, hrest⟩ := List.forall_mem_cons.mp hbookmarks
      refine ends_addAll_cons (Store.add_of_recordText h hchecked htext now) ?_ ?_
      · rintro stored after ⟨-, hafter⟩
        exact ih hrest hafter
      · rintro fault after ⟨⟨stored, hstored⟩, -⟩
        cases hstored

end Command

/-! ## Runs on any store -/

namespace Command

variable {s : Surroundings} {session : Session} {i : Invocation} {file : Path} {fault : Failure}

/-- A failure that was not foreseen ends the run before any store is opened, too. -/
theorem importFile_apply_of_crash (hfound : session.journal.disk.read file = .ok content)
    (hbookmarks : bookmarksOf content = .error fault) (hfault : fault.isUnreadableRecord = false) :
    importFile s i file session = (.error (.crash fault), session) := by
  refine (bind_apply_of_ok (onDisk_read_apply hfound)).trans ((bind_apply_of_ok rfl).trans ?_)
  simp only [hbookmarks, hfault, Bool.false_eq_true, if_false]
  rfl

end Command

/-- The log of crashes is no record file. -/
theorem Session.spares_crash (s : Surroundings) (context : String) (store : Option Path)
    (f : Failure) (session : Session) :
    Disk.Spares isRecordName session.journal.disk (crash s context store f session).disk := by
  have hdisk : (crash s context store f session).disk =
      (CrashLog.record s f context store session.journal.disk).2 := disk_foldl_tell _ _ _
  rw [hdisk]
  exact CrashLog.spares_record (by decide) s f context store session.journal.disk

/-- A run that imports a file, which is found. -/
structure FileImport where
  surroundings : Surroundings
  disk : Disk
  args : List String
  invocation : Invocation
  file : Path
  content : ByteArray
  isUnderstood : Invocation.read disk
    (surroundings.environment.path? "TAGMARKS_STORE_PATH") args = .ok invocation
  isImport : invocation.request = .importFile file
  isFound : disk.read file = .ok content

namespace FileImport

def finished (run : FileImport) : Finished := Session.run run.surroundings run.disk run.args

/-- The moment of a run, as the program keeps moments. -/
def now (run : FileImport) : Instant := run.surroundings.now.wholeSecond

/-- What a run begins with. -/
def start (run : FileImport) : Session :=
  Session.start run.surroundings run.disk run.invocation

variable {run : FileImport}

theorem read_start (run : FileImport) :
    run.start.journal.disk.read run.file = .ok run.content := by
  rw [start, Session.disk_start]
  exact run.isFound

theorem finished_eq (run : FileImport) : run.finished =
    match Command.importFile run.surroundings run.invocation run.file run.start with
    | (.ok (), session) => Session.finish 0 session
    | (.error (.exit code), session) => Session.finish code session
    | (.error (.crash f), session) => Session.crash run.surroundings
        (String.intercalate " " ("tagmarks" :: run.args)) run.invocation.store f session := by
  rw [finished, Session.run_eq run.isUnderstood, Command.ofInvocation, run.isImport]
  rfl

/-- Nothing is stored of a file that lists no bookmarks. -/
theorem finished_of_listsNone (h : ListsNone run.content) :
    run.finished.code = 1 ∧ Disk.Spares isRecordName run.disk run.finished.disk := by
  have hstart : run.start.journal.disk = run.disk := Session.disk_start run.invocation
  obtain ⟨fault, hfault⟩ := h.exists_fault
  rw [finished_eq]
  cases hkind : fault.isUnreadableRecord with
  | true =>
      rw [Command.importFile_apply_of_error run.read_start hfault hkind]
      refine ⟨rfl, ?_⟩
      change Disk.Spares isRecordName run.disk run.start.journal.disk
      rw [hstart]
      exact .refl
  | false =>
      rw [Command.importFile_apply_of_crash run.read_start hfault hkind]
      refine ⟨rfl, ?_⟩
      have hspares := Session.spares_crash run.surroundings
        (String.intercalate " " ("tagmarks" :: run.args)) run.invocation.store fault run.start
      rwa [hstart] at hspares

end FileImport

/-! ## Runs on a shelf -/

/-- Whether a record file is skipped when a store is opened, or holds a bookmark with the times of
its creation and of its last change. -/
def IsDatedFile (d : Disk) (p : Path) (name : String) : Prop :=
  match (readRecord d (p.child name) : Except Failure Bookmark) with
  | .ok b => b.isComplete = true
  | .error fault => fault.isUnreadableRecord = true

/-- A run that imports a file into a shelf: the directory of the store could be entered, and the
bookmarks in it have their times. -/
structure ShelfImport extends FileImport where
  path : Path
  entered : Session
  isEntered : Command.enter surroundings invocation.store
    (Session.start surroundings disk invocation) = (.ok path, entered)
  isShelf : ∀ name ∈ recordNames entered.journal.disk path,
    IsDatedFile entered.journal.disk path name

namespace ShelfImport

/-- What a run has done once its store is open. -/
def opened (run : ShelfImport) : Session :=
  (Command.openStore run.surroundings run.invocation.store run.start).2

variable (run : ShelfImport) (before : RecordDirectory Bookmark Locator)
  (bookmarks : List Bookmark)

/-- The addition of bookmarks to a store that was opened. -/
def adding : Except Failure Unit × Reported (RecordDirectory Bookmark Locator) :=
  (Command.addAll run.now bookmarks).execute { before with disk := run.opened.journal.disk }

/-- The store once bookmarks were added. -/
def filled : RecordDirectory Bookmark Locator := (run.adding before bookmarks).2.state

/-- Whether no step on the disk fails while bookmarks are added. -/
def WritesAll : Prop :=
  ∀ fault, (run.adding before bookmarks).1 = .error fault → fault.isFileFault = false

/-- Whether nothing keeps a run from storing records in the directory that it opened. -/
def IsUnhindered : Prop := ∃ l, IsFree run.path l run.opened.journal.disk

/-- What a run has done that put bookmarks into a store, one after the other. -/
structure IsMerged : Prop where
  code : run.finished.code = 0
  entries : (run.filled before bookmarks).entries =
    Store.merged run.now before.entries bookmarks
  /-- The last bookmark that is given for a locator is the one that is stored. -/
  last : ∀ key, Store.get (run.filled before bookmarks) key =
    Store.lastOf (Store.givenFor bookmarks key) (Store.get before key) run.now
  /-- The record files of other locators are as they were. -/
  kept : ∀ n, isRecordName n = true → n ∉ (Store.keysOf bookmarks).map (nameOf Bookmark) →
    bytesAt? run.finished.disk run.path n = bytesAt? run.entered.journal.disk run.path n
  written : ∀ key ∈ Store.keysOf bookmarks,
    (∀ k ∈ Store.keysOf bookmarks, nameOf Bookmark k = nameOf Bookmark key → k = key) →
    ∃ stored text, Store.get (run.filled before bookmarks) key = some stored ∧
      recordText stored = .ok text ∧
      bytesAt? run.finished.disk run.path (nameOf Bookmark key) = some text.toUTF8
  /-- Where record files have the names of their locators, and no two of these share one, the store
  is opened again as it was. -/
  reopened :
    (∀ key ∈ Store.keysOf bookmarks, ∀ stored,
      Store.get (run.filled before bookmarks) key = some stored → stored.IsCanonical) →
    (∀ f ∈ records Bookmark run.entered.journal.disk run.path, f.1 = nameOf Bookmark f.2.locator) →
    (∀ k ∈ Store.keysOf bookmarks, ∀ m, m ∈ Store.keysOf bookmarks ∨ Store.get before m ≠ none →
      nameOf Bookmark k = nameOf Bookmark m → k = m) →
    ∃ after, (∀ clock, ((Store.load clock run.path).execute run.finished.disk).1 = .ok after) ∧
      ∀ key, Store.get after key = Store.get (run.filled before bookmarks) key

/-- Whether a store is what a run opens, and what the shelf opens to at any other time. -/
structure Opens : Prop where
  opened : Command.openStore run.surroundings run.invocation.store run.start =
    (.ok before, run.opened)
  spares : Journal.Spares run.entered.journal run.opened.journal
  path : before.path = run.path
  disk : before.disk = run.entered.journal.disk
  values : ∀ key, Store.get before key =
    lastHeld? (records Bookmark run.entered.journal.disk run.path) key
  loads : ∀ clock,
    ((Store.load clock run.path).execute run.entered.journal.disk).1 = .ok before

theorem entered_spec : (∀ h ∈ run.entered.journal.handlers, h.IsDiscreet) ∧
    Disk.Spares isRecordName run.disk run.entered.journal.disk ∧
    ∃ l, LiesAt run.entered.journal.disk run.path l :=
  Session.entered_spec run.isEntered

theorem isHandled : ∀ name ∈ recordNames run.entered.journal.disk run.path,
    IsHandled Bookmark run.entered.journal.disk run.path name := by
  intro name hname fault hfault
  have hdated := run.isShelf name hname
  rwa [IsDatedFile, hfault] at hdated

theorem isComplete_of_mem_records {name : String} {b : Bookmark}
    (hmem : (name, b) ∈ records Bookmark run.entered.journal.disk run.path) :
    b.isComplete = true := by
  obtain ⟨hname, hread⟩ := mem_records_iff_mem.mp hmem
  have hdated := run.isShelf name hname
  rwa [IsDatedFile, hread] at hdated

theorem exists_opens : ∃ before, run.Opens before := by
  obtain ⟨hhandlers, -, l, hlies⟩ := run.entered_spec
  obtain ⟨before, hpath, hdisk, hvalues, hload⟩ := Store.exists_load_of_dated hlies run.isHandled
    fun f hf => Bool.and_eq_true_iff.mp (run.isComplete_of_mem_records hf)
  obtain ⟨hloaded, hstate⟩ := hload fun _ => run.now
  obtain ⟨last, hopened, hspares⟩ :=
    Command.exists_openStore_apply run.isEntered hhandlers hloaded hstate
  obtain rfl : run.opened = last := congrArg Prod.snd hopened
  exact ⟨before, hopened, hspares, hpath, hdisk, hvalues, fun clock => (hload clock).1⟩

variable {run before bookmarks}

namespace Opens

variable (h : run.Opens before)

include h

theorem handlers : ∀ h ∈ run.opened.journal.handlers, h.IsDiscreet :=
  h.spares.handlers ▸ run.entered_spec.1

theorem isOpened {l : Location} (hlies : LiesAt run.entered.journal.disk run.path l) :
    IsOpened l before := by
  rw [← h.disk, ← h.path] at hlies
  refine ⟨hlies, ?_, ?_⟩
  · rw [h.disk, h.path]
    exact run.isHandled
  · rw [h.disk, h.path]
    exact h.values

variable (hlists : Lists run.content bookmarks)

include hlists

/-- Nothing keeps a run that is not hindered from its end. -/
theorem writesAll_of_isUnhindered (hrun : run.IsUnhindered) : run.WritesAll before bookmarks := by
  obtain ⟨l, hfree⟩ := hrun
  rw [← h.path] at hfree
  have hadded : (run.adding before bookmarks).1 = .ok ⟨⟩ :=
    (Command.addAll_of_isFree (r := { before with disk := run.opened.journal.disk })
      hlists.exists_recordText hfree).execute
  intro fault hfault
  cases hadded.symm.trans hfault

/-- The bookmarks are put into the store and into its files, and the run ends well. -/
theorem merges_of_writesAll (hwrites : run.WritesAll before bookmarks) :
    run.finished.code = 0 ∧ (∃ l, LiesAt run.finished.disk run.path l) ∧
      Store.Merges run.now bookmarks before
        { run.filled before bookmarks with disk := run.finished.disk } := by
  obtain ⟨-, -, l, hlies⟩ := run.entered_spec
  have hentered : SameFiles run.path run.entered.journal.disk run.opened.journal.disk :=
    hlies.sameFiles (h.spares.agree l)
  have hopened : LiesAt run.opened.journal.disk before.path l :=
    h.path ▸ hlies.of_agree (h.spares.agree l)
  obtain ⟨hadded, hplace, hmerges⟩ : (run.adding before bookmarks).1 = .ok ⟨⟩ ∧
      LiesAt (run.filled before bookmarks).disk (run.filled before bookmarks).path l ∧
      Store.Merges run.now bookmarks { before with disk := run.opened.journal.disk }
        (run.filled before bookmarks) := by
    have hends := Command.addAll_merges (r := { before with disk := run.opened.journal.disk })
      run.now hlists.exists_recordText hopened
    rcases hends.execute with hdone | ⟨fault, hfault, hkind⟩
    · exact hdone
    · cases hkind.symm.trans (hwrites fault hfault)
  rw [hmerges.path] at hplace
  change LiesAt _ before.path l at hplace
  have hrun := Command.importFile_apply run.read_start (bookmarksOf_eq_ok_iff.mpr hlists) h.opened
    (Prod.ext hadded rfl : run.adding before bookmarks = (.ok ⟨⟩, (run.adding before bookmarks).2))
  have hfinished : run.finished = Session.finish 0 (Command.say ("Imported " ++
      String.ofList (Nat.toDigits 10 bookmarks.length) ++ " bookmarks")
      ⟨(run.adding before bookmarks).2.events.foldl (fun j e => j.write run.surroundings e)
        { run.opened.journal with disk := (run.filled before bookmarks).disk },
          run.opened.printed⟩).2 := by
    rw [run.finished_eq, hrun]
    rfl
  have hspares := Journal.spares_writeAll (s := run.surroundings)
    (j := { run.opened.journal with disk := (run.filled before bookmarks).disk })
    h.handlers (run.adding before bookmarks).2.events
  have hwritten : Disk.Agree isRecordName l (run.filled before bookmarks).disk
      run.finished.disk := by
    rw [hfinished]
    exact hspares.agree l
  refine ⟨by rw [hfinished]; rfl, ⟨l, h.path ▸ hplace.of_agree hwritten⟩, ?_⟩
  rw [← h.path, ← h.disk] at hentered
  exact hmerges.congr hentered (hplace.sameFiles hwritten)

/-- The store has each bookmark that was given last, and is opened again as it was. -/
theorem isMerged (hwrites : run.WritesAll before bookmarks) : run.IsMerged before bookmarks := by
  obtain ⟨hcode, ⟨k, hplace⟩, hmerges⟩ := h.merges_of_writesAll hlists hwrites
  obtain ⟨-, -, l, hlies⟩ := run.entered_spec
  have hkept := hmerges.kept
  have hwritten := hmerges.written
  rw [h.disk, h.path] at hkept
  rw [h.path] at hwritten
  refine ⟨hcode, hmerges.entries, ?_, hkept, hwritten, ?_⟩
  · intro key
    exact (congrArg (Entries.value? · key) hmerges.entries).trans Store.value?_merged
  · intro hcanonical hnamed hapart
    have hheld : ∀ f ∈ records Bookmark run.entered.journal.disk run.path,
        Store.get before f.2.locator ≠ none := by
      intro f hf hnone
      rw [h.values] at hnone
      exact lastHeld?_eq_none.mp hnone f hf rfl
    obtain ⟨fresh, hload, hvalues⟩ := hmerges.exists_load (k := k) (h.isOpened hlies)
      (fun key hkey stored hstored text htext =>
        valueOfBytes_recordText (hcanonical key hkey stored hstored) htext)
      (fun m hm n hn => hapart m hm n (.inl hn)) (by rwa [h.path])
      (by rw [h.disk, h.path]; exact fun f hf => run.isComplete_of_mem_records hf)
      (by rwa [h.disk, h.path])
      (by rw [h.disk, h.path]; exact fun m hm f hf => hapart m hm _ (.inr (hheld f hf)))
    refine ⟨fresh, fun clock => ?_, hvalues⟩
    rw [← h.path]
    exact hload clock

end Opens

end ShelfImport

open Store

def datedPage : Bookmark := { samplePage "http://a.org/" with created := some midnight }

def renamedPage : Bookmark := { samplePage "http://a.org/" with title := .text "Lean 4" }

/-- What is stored of both at midnight. -/
def lastPage : Bookmark :=
  { renamedPage with created := some midnight, modified := some midnight }

def repeatedPages : List Bookmark := [datedPage, renamedPage]

def repeatedRecords : List Json := (repeatedPages.mapM Bookmark.toRecord).toOption.getD []

def importShelf (content : ByteArray) : Disk :=
  { pageShelf with files := ⟨(["x.json"], .file content) :: pageShelf.files.entries⟩ }

/-- What every import begins with. -/
def importStart (content : ByteArray) : Session :=
  Session.start adder (importShelf content) importing

theorem midnight_isRecordable : midnight.IsRecordable := ⟨by decide, by decide⟩

theorem renamedPage_isCanonical : renamedPage.IsCanonical :=
  have hpage : (samplePage "http://a.org/").IsCanonical := samplePage_isCanonical rfl
  ⟨hpage.url, ⟨_, rfl⟩, hpage.notes, hpage.image, hpage.tags, hpage.color, hpage.created,
    hpage.modified, hpage.lastVisited, hpage.visitCount⟩

theorem lastPage_isCanonical : lastPage.IsCanonical :=
  renamedPage_isCanonical.withTimes (fun _ ht => Option.some.inj ht ▸ midnight_isRecordable)
    fun _ ht => Option.some.inj ht ▸ midnight_isRecordable

theorem repeatedPages_isCanonical :
    ∀ b ∈ repeatedPages, b.IsCanonical ∧ b.visitCount.hasOversized = false := by
  have hpage : (samplePage "http://a.org/").IsCanonical := samplePage_isCanonical rfl
  have hdated : datedPage.IsCanonical := hpage.withTimes
    (fun _ ht => Option.some.inj ht ▸ midnight_isRecordable) hpage.modified
  simp only [repeatedPages, List.forall_mem_cons]
  exact ⟨⟨hdated, rfl⟩, ⟨renamedPage_isCanonical, rfl⟩, nofun⟩

theorem repeatedRecords_spec : repeatedRecords.mapM Bookmark.ofRecord = .ok repeatedPages ∧
    Json.areExact repeatedRecords = true ∧ Json.anyOversized repeatedRecords = false := by
  obtain ⟨records, hrecords, hspec⟩ :=
    Bookmark.exists_records_of_isCanonical repeatedPages_isCanonical
  rwa [repeatedRecords, hrecords]

/-- A run on the shelf of the page that is not hindered, and finds the page there. -/
theorem exists_shelfImport (content : ByteArray)
    (hread : Invocation.read (importShelf content) none ["--store", "shelf", "import", "x.json"] =
      .ok importing)
    (henters : entersPage (Command.enter adder importing.store (importStart content)) = true)
    (hclear : opensClear ["shelf"]
      (Command.openStore adder importing.store (importStart content)) = true) :
    ∃ run : ShelfImport, run.content = content ∧ run.now = midnight ∧ run.IsUnhindered ∧
      (∀ f ∈ records Bookmark run.entered.journal.disk run.path,
        f = (fileName "http://a.org/", completePage "http://a.org/")) ∧
      ∀ before, (∀ clock,
          ((load clock run.path).execute run.entered.journal.disk).1 = .ok before) →
        ∀ key ≠ ⟨"http://a.org/"⟩, get before key = none := by
  rcases hentered : Command.enter adder importing.store (importStart content) with
    ⟨result, session⟩
  rw [hentered] at henters
  cases result with
  | error why => cases henters
  | ok p =>
      obtain ⟨hnames, hpage⟩ := records_of_holdsPage henters
      have hshelf : ∀ name ∈ recordNames session.journal.disk p,
          IsDatedFile session.journal.disk p name := by
        intro name hname
        rw [(hnames name).mp hname, IsDatedFile, hpage]
        rfl
      let run : ShelfImport := ⟨⟨adder, importShelf content, _, importing, _, content, hread, rfl,
        rfl⟩, p, session, hentered, hshelf⟩
      obtain ⟨store, hopens⟩ := run.exists_opens
      have hopened : Command.openStore adder importing.store (importStart content) =
          (.ok store, run.opened) := hopens.opened
      rw [hopened] at hclear
      have hready := isUnobstructed_of_opensClear hclear
      rw [hopens.path] at hready
      have hrefusal : run.opened.journal.disk.refusal? = fun _ => none :=
        hopens.spares.refusal.trans run.entered_spec.2.1.refusal
      have hmoment : midnight.wholeSecond = midnight := by decide
      have hrecords : ∀ f ∈ records Bookmark session.journal.disk p,
          f = (fileName "http://a.org/", completePage "http://a.org/") := by
        rintro ⟨name, b⟩ hf
        obtain ⟨hname, hb⟩ := mem_records_iff_mem.mp hf
        obtain rfl := (hnames name).mp hname
        rw [Except.ok.inj (hpage.symm.trans hb)]
      refine ⟨run, rfl, hmoment, ⟨_, hready, congrFun hrefusal⟩, hrecords, ?_⟩
      intro before hbefore key hne
      obtain rfl := Except.ok.inj ((hopens.loads fun _ => noon).symm.trans (hbefore _))
      rw [hopens.values, lastHeld?_eq_none]
      intro f hf hkey
      rw [hrecords f hf] at hkey
      exact hne hkey.symm

end LinkShelf
