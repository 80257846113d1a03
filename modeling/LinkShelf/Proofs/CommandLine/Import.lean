import LinkShelf.Proofs.Bookmark.Decoding
import LinkShelf.Proofs.CommandLine.Upkeep
import LinkShelf.Proofs.Storage.FallibleMap
import LinkShelf.Proofs.Store.Durability

/-!
Bookmarks that are exported as a list of their records and imported again. Main statement: the
record of a canonical bookmark stands for it alone, and a store without bookmarks has exactly the
exported ones after an import, unless a visit count has too many digits to be read
(`records_bring_back`).
-/

namespace LinkShelf

open Operation RecordDirectory

/-- Whether a bookmark can be exported and imported: it is canonical and has both its times, and its
visit count can be read. -/
structure Bookmark.IsExportable (b : Bookmark) : Prop extends b.IsCanonical where
  hasCreated : b.created.isSome = true
  hasModified : b.modified.isSome = true
  isReadable : b.visitCount.hasOversized = false

variable {bookmarks : List Bookmark} {b : Bookmark} {l : Location}

/-! ## Files -/

/-- The records of bookmarks make the bookmarks again. -/
theorem Bookmark.exists_records_of_isCanonical
    (hbookmarks : ∀ b ∈ bookmarks, b.IsCanonical ∧ b.visitCount.hasOversized = false) :
    ∃ records, bookmarks.mapM toRecord = .ok records ∧ records.mapM ofRecord = .ok bookmarks ∧
      Json.areExact records = true ∧ Json.anyOversized records = false := by
  induction bookmarks with
  | nil => exact ⟨[], rfl, rfl, rfl, rfl⟩
  | cons b rest ih =>
      obtain ⟨⟨hb, hcount⟩, hrest⟩ := List.forall_mem_cons.mp hbookmarks
      obtain ⟨records, hrecords, hback, hexact, hsize⟩ := ih hrest
      obtain ⟨record, hrecord, hrecordExact, hrecordBack⟩ := ofRecord_toRecord hb
      obtain ⟨same, hsame, hrecordSize⟩ := hb.isReadFromTexts.isTextual.exists_record
      obtain rfl : same = record := Except.ok.inj (hsame.symm.trans hrecord)
      refine ⟨same :: records, ?_, ?_, ?_, ?_⟩
      · rw [List.mapM_cons, hrecord, ok_bind, hrecords, ok_bind]
        rfl
      · rw [List.mapM_cons, hrecordBack, ok_bind, hback, ok_bind]
        rfl
      · rw [Json.areExact, hrecordExact, hexact]
        rfl
      · rw [Json.anyOversized, hrecordSize, hcount, hsize]
        rfl

theorem Bookmark.exists_records (hbookmarks : ∀ b ∈ bookmarks, b.IsExportable) :
    ∃ records, bookmarks.mapM toRecord = .ok records ∧ records.mapM ofRecord = .ok bookmarks ∧
      Json.areExact records = true ∧ Json.anyOversized records = false :=
  exists_records_of_isCanonical fun b hb =>
    ⟨(hbookmarks b hb).toIsCanonical, (hbookmarks b hb).isReadable⟩

/-- The bytes of a list of records, with a line end after it or without one. -/
def exported (layout : Json.Layout) (ended : Bool) (records : List Json) : ByteArray :=
  ((Json.list records).write layout ++ if ended then "\n" else "").toUTF8

namespace Command

section

variable {records : List Json} (layout : Json.Layout) (ended : Bool)

theorem decodeLines_exported (hexact : Json.areExact records = true) :
    Text.decodeLines (exported layout ended records) =
      .ok ((Json.list records).write layout ++ if ended then "\n" else "") := by
  apply Text.decodeLines_toUTF8
  have hreturn := Json.writeAt_no_return layout 0 (.list records) hexact
  cases ended <;> simpa [Json.write] using hreturn

theorem isSpace_ending : ∀ c ∈ (if ended then "\n" else "").toList, Json.isSpace c = true := by
  cases ended <;> decide

theorem bookmarksOf_exported (hexact : Json.areExact records = true)
    (hsize : Json.anyOversized records = false)
    (hback : records.mapM Bookmark.ofRecord = .ok bookmarks) :
    bookmarksOf (exported layout ended records) = .ok bookmarks := by
  have hread : Json.read ((Json.list records).write layout ++ if ended then "\n" else "") =
      .ok (.list records) := Json.read_write (isSpace_ending ended) hexact hsize
  rw [bookmarksOf, decodeLines_exported layout ended hexact]
  simp only [hread]
  exact hback

/-- Records are refused if an integer in them has too many digits. -/
theorem bookmarksOf_exported_of_anyOversized (hexact : Json.areExact records = true)
    (hsize : Json.anyOversized records = true) :
    ∃ digits, bookmarksOf (exported layout ended records) =
      .error (.json (.oversized digits)) := by
  obtain ⟨digits, hread⟩ := Json.read_write_of_hasOversized (l := layout)
    (v := .list records) (isSpace_ending ended) hexact hsize
  refine ⟨digits, ?_⟩
  rw [bookmarksOf, decodeLines_exported layout ended hexact]
  simp only [hread]

end

end Command

/-! ## Additions -/

/-- A value that is put into a directory is under its key from then on. -/
theorem RecordDirectory.add_puts {V K : Type} [Record V K] [DecidableEq K] {r : RecordDirectory V K}
    (v : V) : (add v).Ends r fun result after =>
      result = .ok () → after.entries = r.entries.put (Keyed.key v) v := by
  refine ends_current_bind.mpr (ends_settled_bind ?_ fun _ _ => nofun)
  intro text _
  refine ends_onDisk_bind ?_ fun _ _ _ => nofun
  exact fun u d _ => ends_change_bind.mpr (ends_report.mpr fun _ => rfl)

namespace Store

variable {r : RecordDirectory Bookmark Locator} (now : Instant)

theorem add_of_isExportable (hb : b.IsExportable) (h : IsFree r.path l r.disk) :
    (add now b).Ends r fun result after => result = .ok b ∧ IsFree after.path l after.disk := by
  obtain ⟨text, htext⟩ := hb.isReadFromTexts.isTextual.recordText_eq.2 hb.isReadable
  refine (add_of_isSome now hb.hasCreated hb.hasModified
    (RecordDirectory.add_of_isFree h htext)).mono ?_
  rintro result after (⟨hresult, -, hafter⟩ | ⟨_, -, hfault, -⟩)
  · exact ⟨hresult, hafter⟩
  · cases hfault

end Store

namespace Command

variable {r : RecordDirectory Bookmark Locator} (now : Instant)

/-- Additions that succeed put all bookmarks after those that are there. -/
theorem addAll_adds (hbookmarks : ∀ b ∈ bookmarks, b.IsExportable)
    (hdistinct : (Entries.keys r.entries ++ bookmarks.map (·.locator)).Nodup) :
    (addAll now bookmarks).Ends r fun result after => result = .ok ⟨⟩ →
      after.entries = r.entries ++ bookmarks.map fun b => (b.locator, b) := by
  induction bookmarks generalizing r with
  | nil => exact ends_pure.mpr fun _ => (List.append_nil _).symm
  | cons b rest ih =>
      obtain ⟨hb, hrest⟩ := List.forall_mem_cons.mp hbookmarks
      have hnew : b.locator ∉ Entries.keys r.entries := fun hmem =>
        List.disjoint_of_nodup_append hdistinct hmem List.mem_cons_self
      refine ends_addAll_cons (Store.add_of_isSome now hb.hasCreated hb.hasModified
        (RecordDirectory.add_puts b)) ?_ fun _ _ _ => nofun
      rintro stored after (⟨-, hafter⟩ | ⟨_, hfault, -⟩)
      · have hentries : after.entries = r.entries ++ [(b.locator, b)] :=
          (hafter rfl).trans (Entries.put_of_not_mem hnew)
        have hmore : (Entries.keys after.entries ++ rest.map (·.locator)).Nodup := by
          simpa [hentries, Entries.keys] using hdistinct
        refine Ends.mono (ih hrest hmore) ?_
        intro result last hlast hresult
        simpa [hentries] using hlast hresult
      · cases hfault

/-- They do succeed where nothing is in the way. -/
theorem addAll_succeeds (hbookmarks : ∀ b ∈ bookmarks, b.IsExportable)
    (h : IsFree r.path l r.disk) :
    (addAll now bookmarks).Ends r fun result _ => result = .ok ⟨⟩ := by
  induction bookmarks generalizing r with
  | nil => exact ends_pure.mpr rfl
  | cons b rest ih =>
      obtain ⟨hb, hrest⟩ := List.forall_mem_cons.mp hbookmarks
      refine ends_addAll_cons (Store.add_of_isExportable now hb h) ?_ ?_
      · rintro stored after ⟨-, hfree⟩
        exact ih hrest hfree
      · rintro fault after ⟨hfault, -⟩
        cases hfault

/-- However additions end, the record files are those of the bookmarks. -/
theorem addAll_mirrors {used : Locator → Prop} (hfaithful : Faithful (Store.Keeps used))
    (hbookmarks : ∀ b ∈ bookmarks, Store.Keeps used b) (h : Mirrors (Store.Keeps used) l r) :
    (addAll now bookmarks).Ends r fun _ after =>
      Mirrors (Store.Keeps used) l after ∧ after.path = r.path := by
  induction bookmarks generalizing r with
  | nil => exact ends_pure.mpr ⟨h, rfl⟩
  | cons b rest ih =>
      obtain ⟨hb, hrest⟩ := List.forall_mem_cons.mp hbookmarks
      refine ends_addAll_cons (Store.add_of_isSome now hb.created hb.modified
        (RecordDirectory.add_spec hfaithful h hb)) ?_ ?_
      · rintro stored after (⟨-, hafter, hpath, -⟩ | ⟨_, hfault, -⟩)
        · exact Ends.mono (ih hrest hafter) fun _ last hlast => ⟨hlast.1, hlast.2.trans hpath⟩
        · cases hfault
      · rintro fault after (⟨hresult, -⟩ | ⟨_, -, hafter, hpath, -⟩)
        · cases hresult
        · exact ⟨hafter, hpath⟩

end Command

/-! ## Runs -/

namespace Command

variable {α β : Type} {s : Surroundings} {session : Session}

/-- A part of a run that succeeded is followed by the next one on the session it led to. -/
theorem bind_apply_of_ok {c : Command α} {next : α → Command β} {mid : Session} {a : α}
    (hrun : c session = (.ok a, mid)) : (c >>= next) session = next a mid := by
  change ExceptT.bindCont next (c session).1 (c session).2 = _
  rw [hrun]
  rfl

/-- A part of a run that is stopped stops what it is a part of. -/
theorem bind_apply_of_error {c : Command α} {next : α → Command β} {mid : Session} {why : Stop}
    (hrun : c session = (.error why, mid)) : (c >>= next) session = (.error why, mid) := by
  change ExceptT.bindCont next (c session).1 (c session).2 = _
  rw [hrun]
  rfl

variable {i : Invocation} {file : Path} {content : ByteArray}

theorem onDisk_read_apply (hfound : session.journal.disk.read file = .ok content) :
    onDisk s (do
      match (← Operation.current).read file with
      | .ok content => return content
      | .error fault => throw (.file fault)) session = (.ok (.ok content), session) := by
  have hread : (do
      match (← Operation.current).read file with
      | .ok content => return content
      | .error fault => throw (.file fault) : Operation Disk ByteArray).execute
        session.journal.disk = (.ok content, ⟨session.journal.disk, []⟩) := by
    change (match session.journal.disk.read file with
      | .ok content => pure content
      | .error fault => throw (.file fault) : Operation Disk ByteArray)
        ⟨session.journal.disk, []⟩ = _
    rw [hfound]
    rfl
  simp only [onDisk, hread]
  rfl

theorem importFile_apply {store : RecordDirectory Bookmark Locator} {opened : Session}
    {result : Except Failure PUnit} {after : Reported (RecordDirectory Bookmark Locator)}
    (hfound : session.journal.disk.read file = .ok content)
    (hbookmarks : bookmarksOf content = .ok bookmarks)
    (hopened : openStore s i.store session = (.ok store, opened))
    (hadded : (addAll s.now.wholeSecond bookmarks).execute
      { store with disk := opened.journal.disk } = (result, after)) :
    importFile s i file session =
      (attempt result >>= fun _ => say ("Imported " ++
        String.ofList (Nat.toDigits 10 bookmarks.length) ++ " bookmarks"))
        ⟨after.events.foldl (fun j e => j.write s e)
          { opened.journal with disk := after.state.disk }, opened.printed⟩ := by
  have hstored : onStore s store (addAll s.now.wholeSecond bookmarks) opened =
      (.ok result, ⟨after.events.foldl (fun j e => j.write s e)
        { opened.journal with disk := after.state.disk }, opened.printed⟩) := by
    simp only [onStore, hadded]
  refine (bind_apply_of_ok (onDisk_read_apply hfound)).trans ((bind_apply_of_ok rfl).trans ?_)
  simp only [hbookmarks]
  refine (bind_apply_of_ok rfl).trans ((bind_apply_of_ok hopened).trans ?_)
  exact bind_apply_of_ok hstored

/-- A file that cannot be read as bookmarks ends the run before any store is opened. -/
theorem importFile_apply_of_error {fault : Failure}
    (hfound : session.journal.disk.read file = .ok content)
    (hbookmarks : bookmarksOf content = .error fault) (hfault : fault.isUnreadableRecord = true) :
    importFile s i file session =
      refuse ("Invalid import file " ++ file.text ++ ": " ++ fault.message) session := by
  refine (bind_apply_of_ok (onDisk_read_apply hfound)).trans ((bind_apply_of_ok rfl).trans ?_)
  simp only [hbookmarks, hfault, if_true]
  rfl

end Command

theorem Session.run_eq {s : Surroundings} {d : Disk} {args : List String} {i : Invocation}
    (hread : Invocation.read d (s.environment.path? "TAGMARKS_STORE_PATH") args = .ok i) :
    run s d args =
      match Command.ofInvocation s i (start s d i) with
      | (.ok (), session) => finish 0 session
      | (.error (.exit code), session) => finish code session
      | (.error (.crash f), session) =>
        crash s (String.intercalate " " ("tagmarks" :: args)) i.store f session := by
  rw [run, hread]
  rfl

/-- A run that imports a file into a store without bookmarks: the file is found, and the store is
opened where there were no record files. -/
structure ImportRun where
  surroundings : Surroundings
  disk : Disk
  args : List String
  invocation : Invocation
  file : Path
  content : ByteArray
  store : RecordDirectory Bookmark Locator
  opened : Session
  location : Location
  isUnderstood : Invocation.read disk
    (surroundings.environment.path? "TAGMARKS_STORE_PATH") args = .ok invocation
  isImport : invocation.request = .importFile file
  isFound : disk.read file = .ok content
  isOpened : Command.openStore surroundings invocation.store
    (Session.start surroundings disk invocation) = (.ok store, opened)
  isLocated : opened.journal.disk.locate store.path = .ok location
  isEmpty : ∀ name, isRecordName name = true → disk.files.file? (location ++ [name]) = none

namespace ImportRun

/-- What the run leaves behind. -/
def finished (run : ImportRun) : Finished := Session.run run.surroundings run.disk run.args

/-- The store, on the disk as it is once the store is open. -/
def directory (run : ImportRun) : RecordDirectory Bookmark Locator :=
  { run.store with disk := run.opened.journal.disk }

/-- The addition of bookmarks to the store. -/
def adding (run : ImportRun) (bookmarks : List Bookmark) :
    Except Failure PUnit × Reported (RecordDirectory Bookmark Locator) :=
  (Command.addAll run.surroundings.now.wholeSecond bookmarks).execute run.directory

/-- The store with the bookmarks of the file. -/
def filled (run : ImportRun) : RecordDirectory Bookmark Locator :=
  match Command.bookmarksOf run.content with
  | .ok bookmarks => (run.adding bookmarks).2.state
  | .error _ => run.directory

/-- Whether nothing keeps the run from storing records in the directory that it opened. -/
def IsUnhindered (run : ImportRun) : Prop :=
  IsFree run.store.path run.location run.opened.journal.disk

variable {run : ImportRun}

/-- The store is opened without bookmarks, and nothing else has changed what matters to it. -/
theorem opened_spec (run : ImportRun) :
    run.opened.Guards (fun _ _ => False) run.location ∧ run.store.entries = [] ∧
      run.opened.journal.disk.refusal? = run.disk.refusal? := by
  have hnone : HoldsOnly (fun _ _ => False) run.location run.disk := by
    intro name content hname hfile
    cases (run.isEmpty name hname).symm.trans hfile
  have hQ : Discipline (V := Bookmark) (fun _ _ => False) (fun _ => False) fun _ => False :=
    ⟨fun h _ => h, fun h _ => h, fun h => h⟩
  have hregime : Store.Regime (fun _ => False) (fun _ => False)
      run.surroundings.now.wholeSecond :=
    ⟨fun _ _ _ h _ => h.elim, fun h _ => h.elim⟩
  obtain ⟨hguards, hstore⟩ := Command.upholds_openStore
    (Session.guards_start (s := run.surroundings) hnone run.invocation) hQ hregime
    run.invocation.store
  rw [run.isOpened] at hguards hstore
  obtain ⟨⟨k, hk⟩, hrefusal⟩ := hstore _ rfl
  obtain rfl : k = run.location :=
    Except.ok.inj (hk.lies.located.symm.trans run.isLocated)
  refine ⟨hguards, List.eq_nil_iff_forall_not_mem.mpr fun e he => hk.entries rfl e he, ?_⟩
  rw [hrefusal, Session.disk_start]

theorem IsUnhindered.names_opened (h : run.IsUnhindered) :
    (run.opened.journal.disk.files.names run.location).filter isRecordName = [] := by
  obtain ⟨hguards, -⟩ := run.opened_spec
  rw [List.filter_eq_nil_iff]
  intro name hmem hname
  have hdirectory := h.files name
  rw [FileSystem.mem_names_iff_node?] at hmem
  cases hnode : run.opened.journal.disk.files.node? (run.location ++ [name]) with
  | none => exact hmem hnode
  | some node =>
      cases node with
      | directory => simp [FileSystem.isDirectory, hnode] at hdirectory
      | file content =>
          refine hguards.files name content hname ?_
          rw [FileSystem.file?, hnode]

theorem IsUnhindered.directory_mirrors (h : run.IsUnhindered) (P : Bookmark → Prop) :
    Mirrors P run.location run.directory := by
  obtain ⟨-, hentries, -⟩ := run.opened_spec
  refine ⟨run.isLocated, h.directory, ?_, ?_, ?_⟩
  · rw [directory, h.names_opened, hentries]
    exact .refl _
  · simp [directory, hentries]
  · simp [directory, hentries, Entries.keys]

theorem read_start (run : ImportRun) :
    (Session.start run.surroundings run.disk run.invocation).journal.disk.read run.file =
      .ok run.content := by
  rw [Session.disk_start]
  exact run.isFound

/-- A file that cannot be read as bookmarks changes nothing. -/
theorem finished_of_error {fault : Failure} (hfault : fault.isUnreadableRecord = true)
    (hrefused : Command.bookmarksOf run.content = .error fault) :
    run.finished.code = 1 ∧ run.finished.disk = run.disk ∧ Store.all run.filled = [] := by
  have hrun := Command.importFile_apply_of_error (s := run.surroundings) (i := run.invocation)
    run.read_start hrefused hfault
  have hfinished : run.finished = Session.finish 1
      (Command.tell ("Error: " ++ ("Invalid import file " ++ run.file.text ++ ": " ++
        fault.message)) (Session.start run.surroundings run.disk run.invocation)).2 := by
    rw [finished, Session.run_eq run.isUnderstood, Command.ofInvocation, run.isImport]
    simp only [hrun]
    rfl
  rw [hfinished, filled, hrefused]
  refine ⟨rfl, Session.disk_start run.invocation, ?_⟩
  obtain ⟨-, hentries, -⟩ := run.opened_spec
  change List.map (·.2) run.store.entries = []
  rw [hentries]
  rfl

section

variable (hread : Command.bookmarksOf run.content = .ok bookmarks)

include hread

theorem filled_eq : run.filled = (run.adding bookmarks).2.state := by
  rw [filled, hread]

/-- Where all bookmarks are added, the run ends well and leaves the record files of the store that
it filled. -/
theorem finished_of_ok (hadded : (run.adding bookmarks).1 = .ok ⟨⟩) :
    run.finished.code = 0 ∧
      ∀ l, Disk.Agree isRecordName l run.filled.disk run.finished.disk := by
  have hrun := Command.importFile_apply run.read_start hread run.isOpened
    (Prod.ext hadded rfl : run.adding bookmarks = (.ok ⟨⟩, (run.adding bookmarks).2))
  have hfinished : run.finished = Session.finish 0
      (Command.say ("Imported " ++ String.ofList (Nat.toDigits 10 bookmarks.length) ++
        " bookmarks") ⟨(run.adding bookmarks).2.events.foldl
          (fun j e => j.write run.surroundings e)
          { run.opened.journal with disk := (run.adding bookmarks).2.state.disk },
            run.opened.printed⟩).2 := by
    rw [finished, Session.run_eq run.isUnderstood, Command.ofInvocation, run.isImport]
    simp only [hrun]
    rfl
  rw [hfinished, filled_eq hread]
  refine ⟨rfl, ?_⟩
  have hspares := Journal.spares_writeAll (s := run.surroundings)
    (j := { run.opened.journal with disk := (run.adding bookmarks).2.state.disk })
    run.opened_spec.1.handlers (run.adding bookmarks).2.events
  exact hspares.agree

/-- It ends with another code where one is not added. -/
theorem adding_of_code (hcode : run.finished.code = 0) : (run.adding bookmarks).1 = .ok ⟨⟩ := by
  cases hadded : (run.adding bookmarks).1 with
  | ok u => rfl
  | error fault =>
      have hrun := Command.importFile_apply run.read_start hread run.isOpened
        (Prod.ext hadded rfl : run.adding bookmarks = (.error fault, (run.adding bookmarks).2))
      rw [finished, Session.run_eq run.isUnderstood, Command.ofInvocation, run.isImport] at hcode
      simp only [hrun] at hcode
      cases hcode

variable (hbookmarks : ∀ b ∈ bookmarks, b.IsExportable)

include hbookmarks

omit hread in
/-- Nothing keeps a run that is not hindered from its end. -/
theorem IsUnhindered.adding_succeeds (h : run.IsUnhindered) :
    (run.adding bookmarks).1 = .ok ⟨⟩ := by
  have hfree : IsFree run.directory.path run.location run.directory.disk := h
  exact (Command.addAll_succeeds run.surroundings.now.wholeSecond hbookmarks hfree).execute

variable (hdistinct : (bookmarks.map (·.locator)).Nodup)

include hdistinct

/-- The bookmarks that are added are all that the store has. -/
theorem all_filled (hadded : (run.adding bookmarks).1 = .ok ⟨⟩) :
    Store.all run.filled = bookmarks := by
  have hentries : run.directory.entries = [] := run.opened_spec.2.1
  have hnew : (Entries.keys run.directory.entries ++ bookmarks.map (·.locator)).Nodup := by
    rw [hentries]
    exact hdistinct
  have hstored := (Command.addAll_adds run.surroundings.now.wholeSecond hbookmarks hnew).execute
    hadded
  rw [hentries, List.nil_append] at hstored
  rw [filled_eq hread]
  change List.map (·.2) (run.adding bookmarks).2.state.entries = bookmarks
  rw [adding, hstored, List.map_map]
  exact List.map_id' _

/-- The store is opened again with the same bookmarks, if no two of their locators have one
digest. -/
theorem IsUnhindered.reopened (h : run.IsUnhindered)
    (hdigest : ∀ b ∈ bookmarks, ∀ c ∈ bookmarks, Digest.ofText b.url = Digest.ofText c.url →
      b.locator = c.locator) (clock : Nat → Instant) :
    ∃ fresh, ((Store.load clock run.store.path).execute run.finished.disk).1 = .ok fresh ∧
      (Store.all fresh).Perm bookmarks := by
  have hused : ∀ k m : Locator, k ∈ bookmarks.map (·.locator) → m ∈ bookmarks.map (·.locator) →
      Digest.ofText k.url = Digest.ofText m.url → k = m := by
    intro k m hk hm hsame
    obtain ⟨b, hb, rfl⟩ := List.mem_map.mp hk
    obtain ⟨c, hc, rfl⟩ := List.mem_map.mp hm
    exact hdigest b hb c hc hsame
  have hfaithful := Store.faithful_keeps hused
  have hkeeps : ∀ b ∈ bookmarks, Store.Keeps (· ∈ bookmarks.map (·.locator)) b := fun b hb =>
    have hexportable := hbookmarks b hb
    ⟨hexportable.toIsCanonical, hexportable.hasCreated, hexportable.hasModified,
      List.mem_map_of_mem hb⟩
  have hfilled : Mirrors (Store.Keeps (· ∈ bookmarks.map (·.locator))) run.location run.filled ∧
      run.filled.path = run.store.path := by
    rw [filled_eq hread]
    exact (Command.addAll_mirrors run.surroundings.now.wholeSecond hfaithful hkeeps
      (h.directory_mirrors _)).execute
  have hadded := h.adding_succeeds hbookmarks
  have hall := all_filled hread hbookmarks hdistinct hadded
  obtain ⟨-, hagree⟩ := finished_of_ok hread hadded
  have hlast := hfilled.1.of_agree (hagree run.location)
  obtain ⟨-, entries, hperm, hopened⟩ := (Store.load_spec hfaithful hlast clock).execute
  rw [← hfilled.2]
  refine ⟨_, hopened, ?_⟩
  rw [← hall]
  exact hperm.map _

end

end ImportRun

/-- A canonical bookmark is read from its record, and a record that gives one is written as a record
that stays the same. A run that imports exported bookmarks leaves a store of exactly those if it
ends well, and it does so if it is not hindered; then the store is also opened again with them. -/
theorem records_bring_back :
    (∀ b : Bookmark, b.IsCanonical →
      ∃ record, b.toRecord = .ok record ∧ Bookmark.ofRecord record = .ok b) ∧
    (∀ given b, Bookmark.ofRecord given = .ok b → b.IsCanonical →
      ∃ record, (Bookmark.ofRecord given >>= Bookmark.toRecord) = .ok record ∧
        (Bookmark.ofRecord record >>= Bookmark.toRecord) = .ok record) ∧
    ∀ bookmarks : List Bookmark, (∀ b ∈ bookmarks, b.IsExportable) →
      (bookmarks.map (·.locator)).Nodup →
      ∃ records, bookmarks.mapM Bookmark.toRecord = .ok records ∧
        ∀ (layout : Json.Layout) (ended : Bool) (run : ImportRun),
          run.content = exported layout ended records →
          (run.finished.code = 0 → Store.all run.filled = bookmarks) ∧
          (run.IsUnhindered → run.finished.code = 0 ∧
            ((∀ b ∈ bookmarks, ∀ c ∈ bookmarks, Digest.ofText b.url = Digest.ofText c.url →
                b.locator = c.locator) →
              ∀ clock, ∃ fresh,
                ((Store.load clock run.store.path).execute run.finished.disk).1 = .ok fresh ∧
                  (Store.all fresh).Perm bookmarks)) := by
  refine ⟨?_, ?_, ?_⟩
  · intro b hb
    obtain ⟨record, hrecord, -, hback⟩ := Bookmark.ofRecord_toRecord hb
    exact ⟨record, hrecord, hback⟩
  · intro given b hgiven hb
    obtain ⟨record, hrecord, -, hback⟩ := Bookmark.ofRecord_toRecord hb
    refine ⟨record, ?_, ?_⟩
    · rw [hgiven, ok_bind, hrecord]
    · rw [hback, ok_bind, hrecord]
  · intro bookmarks hbookmarks hdistinct
    obtain ⟨records, hrecords, hback, hexact, hsize⟩ := Bookmark.exists_records hbookmarks
    refine ⟨records, hrecords, ?_⟩
    intro layout ended run hcontent
    have hread : Command.bookmarksOf run.content = .ok bookmarks := by
      rw [hcontent]
      exact Command.bookmarksOf_exported layout ended hexact hsize hback
    constructor
    · intro hcode
      exact ImportRun.all_filled hread hbookmarks hdistinct (ImportRun.adding_of_code hread hcode)
    · intro hrun
      have hadded := hrun.adding_succeeds hbookmarks
      exact ⟨(ImportRun.finished_of_ok hread hadded).1, hrun.reopened hread hbookmarks hdistinct⟩

/-! Two pages are imported into a new shelf. -/

open Store

def importer : Surroundings := ⟨⟨[("HOME", "/ann")]⟩, noon, .utc⟩

def exportDisk (content : ByteArray) : Disk := ⟨⟨[(["x.json"], .file content)]⟩, [], fun _ => none⟩

def importing : Invocation := ⟨false, false, some (.ofText "shelf"), .importFile (.ofText "x.json")⟩

/-- Whether a store was opened at a location with nothing in the way of records. -/
def opensClear (l : Location) : Except Stop (RecordDirectory Bookmark Locator) × Session → Bool
  | (.ok store, session) =>
    let d := session.journal.disk
    decide ((d.locate store.path).toOption = some l) && d.files.isDirectory l &&
      (d.files.names l).all (fun name =>
        decide (name ≠ temporaryName 0) && !d.files.isDirectory (l ++ [name])) &&
      decide (store.path.text.utf8ByteSize + 46 ≤ Disk.maxPathBytes)
  | _ => false

theorem isUnobstructed_of_opensClear {l : Location} {store : RecordDirectory Bookmark Locator}
    {session : Session} (hclear : opensClear l (.ok store, session) = true) :
    IsUnobstructed store.path l session.journal.disk := by
  simp only [opensClear, Bool.and_eq_true, decide_eq_true_eq, toOption_eq_some,
    List.all_eq_true, Bool.not_eq_true'] at hclear
  obtain ⟨⟨⟨hlocated, hdirectory⟩, hnames⟩, hroom⟩ := hclear
  exact isUnobstructed_of_names hlocated hdirectory hnames hroom

theorem exists_importRun (content : ByteArray)
    (hread : Invocation.read (exportDisk content) none ["--store", "shelf", "import", "x.json"] =
      .ok importing)
    (hopens : opensClear ["shelf"] (Command.openStore importer importing.store
      (Session.start importer (exportDisk content) importing)) = true) :
    ∃ run : ImportRun, run.content = content ∧ run.IsUnhindered := by
  rcases hopened : Command.openStore importer importing.store
    (Session.start importer (exportDisk content) importing) with ⟨result, session⟩
  rw [hopened] at hopens
  cases result with
  | error why => cases hopens
  | ok store =>
      have hready := isUnobstructed_of_opensClear hopens
      let run : ImportRun := ⟨importer, exportDisk content, _, importing, _, content, store,
        session, ["shelf"], hread, rfl, rfl, hopened, hready.located, fun _ _ => rfl⟩
      obtain ⟨-, -, hrefusal⟩ := run.opened_spec
      exact ⟨run, rfl, hready, congrFun hrefusal⟩

def completePage (url : String) : Bookmark :=
  { samplePage url with created := some noon, modified := some noon }

theorem completePage_isCanonical {url : String} (hurl : Locator.of url = .ok ⟨url⟩) :
    (completePage url).IsCanonical :=
  (samplePage_isCanonical hurl).withTimes (fun _ ht => Option.some.inj ht ▸ noon_isRecordable)
    fun _ ht => Option.some.inj ht ▸ noon_isRecordable

def completePages : List Bookmark := [completePage "http://a.org/", completePage "http://b.org/"]

def completeRecords : List Json := (completePages.mapM Bookmark.toRecord).toOption.getD []

theorem records_bring_back_completePages :
    ∃ run : ImportRun, run.finished.code = 0 ∧ Store.all run.filled = completePages ∧
      ∀ clock, ∃ fresh,
        ((Store.load clock run.store.path).execute run.finished.disk).1 = .ok fresh ∧
          (Store.all fresh).Perm completePages := by
  have hpages : ∀ b ∈ completePages, b.IsExportable ∧ IsSamplePage b.locator := by
    simp only [completePages, List.forall_mem_cons]
    refine ⟨⟨⟨completePage_isCanonical rfl, rfl, rfl, rfl⟩, .inl rfl⟩,
      ⟨⟨completePage_isCanonical rfl, rfl, rfl, rfl⟩, .inr rfl⟩, nofun⟩
  obtain ⟨-, -, himport⟩ := records_bring_back
  obtain ⟨records, hrecords, hruns⟩ :=
    himport completePages (fun b hb => (hpages b hb).1) (by decide)
  have hsame : completeRecords = records := by
    rw [completeRecords, hrecords]
    rfl
  obtain ⟨run, hcontent, hunhindered⟩ := exists_importRun (exported .line true completeRecords)
    (by decide +kernel) (by decide +kernel)
  obtain ⟨hall, hends⟩ := hruns .line true run (by rw [hcontent, hsame])
  obtain ⟨hcode, hreopened⟩ := hends hunhindered
  refine ⟨run, hcode, hall hcode, hreopened ?_⟩
  exact fun b hb c hc hdigest => apart_of_isSamplePage (hpages b hb).2 (hpages c hc).2 hdigest

/-! A page with a visit count of 4301 digits is canonical, but no file with it is imported. -/

def wornOutPage : Bookmark :=
  { completePage "http://a.org/" with visitCount := .int (10 ^ 4300 : Nat) }

theorem wornOutPage_isCanonical : wornOutPage.IsCanonical :=
  have hpage : (completePage "http://a.org/").IsCanonical := completePage_isCanonical rfl
  ⟨hpage.url, hpage.title, hpage.notes, hpage.image, hpage.tags, hpage.color, hpage.created,
    hpage.modified, hpage.lastVisited, .inr ⟨_, rfl⟩⟩

def wornOutRecords : List Json := ([wornOutPage].mapM Bookmark.toRecord).toOption.getD []

theorem wornOutPage_stays_away :
    wornOutPage.IsCanonical ∧ wornOutPage.created.isSome = true ∧
      wornOutPage.modified.isSome = true ∧
      ∃ record, wornOutPage.toRecord = .ok record ∧ ∃ run : ImportRun,
        run.content = exported .line true [record] ∧ run.IsUnhindered ∧ run.finished.code = 1 ∧
          run.finished.disk = run.disk ∧ Store.all run.filled = [] := by
  obtain ⟨record, hrecord, hexact, -⟩ := Bookmark.ofRecord_toRecord wornOutPage_isCanonical
  obtain ⟨same, hsame, hsize⟩ :=
    wornOutPage_isCanonical.isReadFromTexts.isTextual.exists_record
  obtain rfl : same = record := Except.ok.inj (hsame.symm.trans hrecord)
  have hcount : wornOutPage.visitCount.hasOversized = true := by decide +kernel
  have hlist : Json.areExact [same] = true := by
    rw [Json.areExact, hexact]
    rfl
  obtain ⟨digits, hrefused⟩ := Command.bookmarksOf_exported_of_anyOversized .line true hlist
    (by rw [Json.anyOversized, hsize, hcount]; rfl)
  have hrecords : wornOutRecords = [same] := by
    rw [wornOutRecords, List.mapM_cons, hrecord]
    rfl
  obtain ⟨run, hcontent, hunhindered⟩ := exists_importRun (exported .line true wornOutRecords)
    (by decide +kernel) (by decide +kernel)
  rw [hrecords] at hcontent
  refine ⟨wornOutPage_isCanonical, rfl, rfl, same, hrecord, run, hcontent, hunhindered, ?_⟩
  exact ImportRun.finished_of_error rfl (by rw [hcontent]; exact hrefused)

end LinkShelf
