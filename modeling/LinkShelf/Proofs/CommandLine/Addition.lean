import LinkShelf.Proofs.CommandLine.GivenFields
import LinkShelf.Proofs.Store.Shelf

/-!
Bookmarks that are added on the command line. Main statement: the store that is opened after such a
run has the bookmark that was there with exactly the given fields, or a new one, and every other
bookmark as it was; no record file changes where the URL or the color is none (`add_updates`).
-/

namespace LinkShelf

open Operation RecordDirectory

theorem Bookmark.IsTextual.exists_details {b : Bookmark} (hb : b.IsTextual) :
    ∃ text, b.details = .ok text := by
  obtain ⟨set, hset⟩ := hb.tags
  obtain ⟨notes, hnotes⟩ := hb.notes
  have htags : b.tagTexts = .ok set.names := by rw [tagTexts, hset]
  have hlines : ∃ lines, b.noteLines = .ok lines := by
    rw [noteLines, hnotes]
    split
    · exact ⟨_, rfl⟩
    · exact ⟨_, rfl⟩
  obtain ⟨lines, hlines⟩ := hlines
  exact ⟨_, by rw [details, htags, ok_bind, hlines, ok_bind]; rfl⟩

/-! ## The command -/

namespace Command

variable {α : Type} {s : Surroundings} {session opened : Session} {i : Invocation} {url : String}
  {f : GivenFields} {store : RecordDirectory Bookmark Locator} {b stored : Bookmark}

/-- The bookmark that is to be stored where a store is open. -/
def requested (url : String) (f : GivenFields) (store : RecordDirectory Bookmark Locator) :
    Except Failure Bookmark := do
  let l ← Locator.ofJson (.text url)
  bookmarkFor url f (Store.get store l)

theorem requested_of_ok {l : Locator} (hl : Locator.of url = .ok l) :
    requested url f store = bookmarkFor url f (Store.get store l) := by
  rw [requested, Locator.ofJson_text, hl]
  rfl

/-- What was stored is printed on a line. -/
theorem exists_sayBookmark_eq_say (hb : b.IsExportable) (json : Bool) :
    ∃ line, sayBookmark json b = say line := by
  have htextual := hb.isReadFromTexts.isTextual
  cases json with
  | true =>
      obtain ⟨record, hrecord, hsize⟩ := htextual.exists_record
      refine ⟨record.write .line, ?_⟩
      have hlayout : sayJson .line record = say (record.write .line) := by
        rw [sayJson, hsize, hb.isReadable]
        rfl
      rw [← hlayout, sayBookmark, if_pos rfl, hrecord]
      rfl
  | false =>
      obtain ⟨text, htext⟩ := htextual.exists_details
      refine ⟨text, ?_⟩
      rw [sayBookmark, if_neg Bool.false_ne_true, htext]
      rfl

/-- An operation that leaves the disk as it was is only written to logs. -/
theorem exists_onDisk_apply (hhandlers : ∀ h ∈ session.journal.handlers, h.IsDiscreet)
    {op : Operation Disk α} {result : Except Failure α}
    (hresult : (op.execute session.journal.disk).1 = result)
    (hstate : (op.execute session.journal.disk).2.state = session.journal.disk) :
    ∃ last, onDisk s op session = (.ok result, last) ∧
      Journal.Spares session.journal last.journal := by
  rcases hrun : op.execute session.journal.disk with ⟨outcome, state, events⟩
  rw [hrun] at hresult hstate
  dsimp only at hresult hstate
  subst hresult hstate
  refine ⟨{ session with journal := events.foldl (fun j e => j.write s e) session.journal }, ?_,
    Journal.spares_writeAll hhandlers events⟩
  simp only [onDisk, hrun]

/-- A store that opens without changes is opened, and the record files stay as they were. -/
theorem exists_openStore_apply {p : Path} {entered : Session} {given : Option Path}
    (hentered : enter s given session = (.ok p, entered))
    (hhandlers : ∀ h ∈ entered.journal.handlers, h.IsDiscreet)
    (hloaded : ((Store.load (fun _ => s.now.wholeSecond) p).execute entered.journal.disk).1 =
      .ok store)
    (hstate : ((Store.load (fun _ => s.now.wholeSecond) p).execute
      entered.journal.disk).2.state = entered.journal.disk) :
    ∃ last, openStore s given session = (.ok store, last) ∧
      Journal.Spares entered.journal last.journal := by
  obtain ⟨last, hread, hspares⟩ := exists_onDisk_apply (s := s) hhandlers hloaded hstate
  refine ⟨last, ?_, hspares⟩
  rw [openStore_eq]
  exact (bind_apply_of_ok hentered).trans (bind_apply_of_ok hread)

section

variable (hopened : openStore s i.store session = (.ok store, opened))

include hopened

theorem add_apply {after : Reported (RecordDirectory Bookmark Locator)}
    (hmade : requested url f store = .ok b)
    (hadded : (Store.add s.now.wholeSecond b).execute { store with disk := opened.journal.disk } =
      (.ok stored, after)) :
    add s i url f session = sayBookmark i.json stored
      ⟨after.events.foldl (fun j e => j.write s e)
        { opened.journal with disk := after.state.disk }, opened.printed⟩ := by
  have hstored : onStore s store (Store.add s.now.wholeSecond b) opened =
      (.ok (.ok stored), ⟨after.events.foldl (fun j e => j.write s e)
        { opened.journal with disk := after.state.disk }, opened.printed⟩) := by
    simp only [onStore, hadded]
  rw [requested] at hmade
  refine (bind_apply_of_ok hopened).trans ?_
  simp only [hmade]
  exact (bind_apply_of_ok rfl).trans ((bind_apply_of_ok hstored).trans (bind_apply_of_ok rfl))

/-- A URL or a color that is none ends the run with a message. -/
theorem add_apply_of_error {fault : Failure} (hkind : fault.isBadValue = true)
    (hmade : requested url f store = .error fault) :
    add s i url f session = refuse fault.message opened := by
  rw [requested] at hmade
  refine (bind_apply_of_ok hopened).trans ?_
  simp only [hmade, refusing, hkind, if_true]
  rfl

end

end Command

/-! ## Runs -/

/-- A run that has entered its store has changed no record file. -/
theorem Session.entered_spec {s : Surroundings} {d : Disk} {i : Invocation} {p : Path}
    {entered : Session}
    (hentered : Command.enter s i.store (Session.start s d i) = (.ok p, entered)) :
    (∀ h ∈ entered.journal.handlers, h.IsDiscreet) ∧
      Disk.Spares isRecordName d entered.journal.disk ∧ ∃ l, LiesAt entered.journal.disk p l := by
  have hstart : HoldsOnly (fun _ _ => True) [] d := fun _ _ _ _ => trivial
  obtain ⟨hguards, hends⟩ := Command.upholds_enter (s := s) (Session.guards_start hstart i) i.store
  rw [hentered] at hguards hends
  obtain ⟨hspares, hplace⟩ := hends _ rfl
  rw [Session.disk_start] at hspares
  exact ⟨hguards.handlers, hspares, hplace⟩

/-- A run that adds a bookmark to a shelf: the directory of the store could be entered, and then
each of its record files has the name of its own locator and holds a complete bookmark. The moment
of the run can be recorded, and the URL has a normal form that is its own, if it has one. -/
structure AddRun where
  surroundings : Surroundings
  disk : Disk
  args : List String
  invocation : Invocation
  url : String
  fields : GivenFields
  path : Path
  entered : Session
  isUnderstood : Invocation.read disk
    (surroundings.environment.path? "TAGMARKS_STORE_PATH") args = .ok invocation
  isAdd : invocation.request = .add url fields
  isEntered : Command.enter surroundings invocation.store
    (Session.start surroundings disk invocation) = (.ok path, entered)
  isShelf : HoldsNamed Bookmark.IsComplete path entered.journal.disk
  isTimely : surroundings.now.wholeSecond.IsRecordable
  isSettled : ∀ l, Locator.of url = .ok l → Locator.of l.url = .ok l

namespace AddRun

/-- The moment of a run, as the program keeps moments. -/
def now (run : AddRun) : Instant := run.surroundings.now.wholeSecond

/-- What a run has done once its store is open. -/
def opened (run : AddRun) : Session :=
  (Command.openStore run.surroundings run.invocation.store
    (Session.start run.surroundings run.disk run.invocation)).2

/-- What a run leaves behind. -/
def finished (run : AddRun) : Finished := Session.run run.surroundings run.disk run.args

/-- The bookmark that is to be at a locator after a run: what was there, or a new one, with the
given fields. -/
def expected (run : AddRun) (before : RecordDirectory Bookmark Locator) (l : Locator) : Bookmark :=
  run.fields.appliedTo ((Store.get before l).getD (.blank l run.now)) run.now

/-- Whether the disk takes the record of a bookmark once the store is open. -/
def CanStore (run : AddRun) (b : Bookmark) : Prop :=
  ∀ text, recordText b = .ok text → (run.opened.journal.disk.store run.path (fileName b.url)
    temporaryName text.toUTF8).1 = .ok ()

/-- Whether a store is what a run opens, and what the shelf opens to at any other time. -/
structure Opens (run : AddRun) (store : RecordDirectory Bookmark Locator) : Prop where
  opened : Command.openStore run.surroundings run.invocation.store
    (Session.start run.surroundings run.disk run.invocation) = (.ok store, run.opened)
  spares : Journal.Spares run.entered.journal run.opened.journal
  path : store.path = run.path
  values : ∀ key, Store.get store key =
    lastHeld? (records Bookmark run.entered.journal.disk run.path) key
  loads : ∀ clock,
    ((Store.load clock run.path).execute run.entered.journal.disk).1 = .ok store

variable (run : AddRun)

theorem entered_spec : (∀ h ∈ run.entered.journal.handlers, h.IsDiscreet) ∧
    Disk.Spares isRecordName run.disk run.entered.journal.disk ∧
    ∃ l, LiesAt run.entered.journal.disk run.path l :=
  Session.entered_spec run.isEntered

theorem holdsNamed_isExportable :
    HoldsNamed Bookmark.IsExportable run.path run.entered.journal.disk :=
  run.isShelf.mono fun _ _ hread hb => hb.isExportable hread

theorem exists_opens : ∃ store, run.Opens store := by
  obtain ⟨hhandlers, -, l, hlies⟩ := run.entered_spec
  have hkeeps : HoldsNamed (Store.Keeps fun _ => True) run.path run.entered.journal.disk :=
    run.holdsNamed_isExportable.mono fun _ _ _ hb =>
      ⟨hb.toIsCanonical, hb.hasCreated, hb.hasModified, trivial⟩
  obtain ⟨store, hpath, -, hvalues, hload⟩ := Store.exists_load hlies hkeeps
  obtain ⟨hloaded, hstate⟩ := hload fun _ => run.now
  obtain ⟨last, hopened, hspares⟩ :=
    Command.exists_openStore_apply run.isEntered hhandlers hloaded hstate
  obtain rfl : run.opened = last := by rw [opened, hopened]
  exact ⟨store, hopened, hspares, hpath, hvalues, fun clock => (hload clock).1⟩

theorem now_isRecordable : run.now.IsRecordable := run.isTimely

variable {run} {store : RecordDirectory Bookmark Locator} {l : Locator}

theorem Opens.handlers (hopens : run.Opens store) :
    ∀ h ∈ run.opened.journal.handlers, h.IsDiscreet :=
  hopens.spares.handlers ▸ run.entered_spec.1

/-- What the shelf has before the run can be written and read again. -/
theorem Opens.of_get (hopens : run.Opens store) {key : Locator} {b : Bookmark}
    (hb : Store.get store key = some b) : b.locator = key ∧ b.IsExportable := by
  rw [hopens.values] at hb
  exact run.holdsNamed_isExportable.of_lastHeld? hb

theorem Opens.expected_spec (hopens : run.Opens store) (hl : Locator.of run.url = .ok l)
    (hf : run.fields.IsValid) :
    (run.expected store l).locator = l ∧ (run.expected store l).IsExportable := by
  have hbefore : ∀ b, b = (Store.get store l).getD (.blank l run.now) →
      b.locator = l ∧ b.IsExportable := by
    rintro b rfl
    cases hget : Store.get store l with
    | none => exact ⟨rfl, Bookmark.blank_isExportable (run.isSettled l hl) run.now_isRecordable⟩
    | some b => exact hopens.of_get hget
  obtain ⟨hlocator, hb⟩ := hbefore _ rfl
  exact ⟨hlocator, GivenFields.appliedTo_isExportable hf hb run.now_isRecordable⟩

section

variable (hopens : run.Opens store) (hl : Locator.of run.url = .ok l) (hf : run.fields.IsValid)
  (hstore : run.CanStore (run.expected store l))

include hopens hl hf hstore

/-- The expected bookmark is stored, and no other record file of the shelf is touched. -/
theorem Opens.exists_add : ∃ given text after,
    Command.requested run.url run.fields store = .ok given ∧
    (Store.add run.now given).execute { store with disk := run.opened.journal.disk } =
      (.ok (run.expected store l), after) ∧
    (∃ k, LiesAt after.state.disk run.path k) ∧
    recordText (run.expected store l) = .ok text ∧
    Rewritten run.path (nameOf Bookmark l) (some text.toUTF8) run.entered.journal.disk
      after.state.disk := by
  obtain ⟨-, -, k, hlies⟩ := run.entered_spec
  obtain ⟨hlocator, hb⟩ := hopens.expected_spec hl hf
  obtain ⟨text, htext⟩ := hb.isReadFromTexts.isTextual.recordText_eq.2 hb.isReadable
  obtain ⟨given, hmade, rfl, hchanged⟩ := Command.exists_bookmarkFor hf hl
    (run.isSettled l hl) run.now_isRecordable fun b => hopens.of_get
  have hopened : LiesAt run.opened.journal.disk store.path k :=
    hopens.path ▸ hlies.of_agree (hopens.spares.agree k)
  have hadded := (Store.add_of_stored (r := { store with disk := run.opened.journal.disk })
    hopened hchanged htext (hopens.path ▸ hstore text htext)).execute
  rcases hrun : (Store.add run.now given).execute { store with disk := run.opened.journal.disk }
    with ⟨result, after⟩
  rw [hrun, hopens.path] at hadded
  obtain ⟨rfl, hplace, hfiles⟩ : result = .ok (run.expected store given.locator) ∧
      LiesAt after.state.disk run.path k ∧
      Rewritten run.path (nameOf Bookmark (run.expected store given.locator).locator)
        (some text.toUTF8) run.opened.journal.disk after.state.disk := hadded
  rw [hlocator] at hfiles
  exact ⟨given, text, after, (Command.requested_of_ok hl).trans hmade, hrun, ⟨k, hplace⟩, htext,
    (hlies.sameFiles (hopens.spares.agree k)).trans_rewritten hfiles⟩

/-- A run that stores its bookmark ends well, and touches no other record file of the shelf. -/
theorem Opens.finished_of_valid :
    run.finished.code = 0 ∧ (∃ k, LiesAt run.finished.disk run.path k) ∧
      ∃ text, recordText (run.expected store l) = .ok text ∧
        Rewritten run.path (nameOf Bookmark l) (some text.toUTF8) run.entered.journal.disk
          run.finished.disk := by
  obtain ⟨given, text, after, hmade, hadded, ⟨k, hlies⟩, htext, hfiles⟩ :=
    hopens.exists_add hl hf hstore
  obtain ⟨-, hb⟩ := hopens.expected_spec hl hf
  have hdone := Command.add_apply hopens.opened hmade hadded
  obtain ⟨line, hline⟩ := Command.exists_sayBookmark_eq_say hb run.invocation.json
  rw [hline] at hdone
  have hfinished : run.finished = Session.finish 0 (Command.say line
      ⟨after.events.foldl (fun j e => j.write run.surroundings e)
        { run.opened.journal with disk := after.state.disk }, run.opened.printed⟩).2 := by
    rw [finished, Session.run_eq run.isUnderstood, Command.ofInvocation, run.isAdd]
    simp only [hdone]
    rfl
  have hspares := Journal.spares_writeAll (s := run.surroundings)
    (j := { run.opened.journal with disk := after.state.disk }) hopens.handlers after.events
  rw [hfinished]
  exact ⟨rfl, ⟨k, hlies.of_agree (hspares.agree k)⟩, text, htext,
    hfiles.trans_same (hlies.sameFiles (hspares.agree k))⟩

end

/-- Opened again, the store has the expected bookmark, and the others as they were. -/
theorem Opens.exists_after (hopens : run.Opens store) (hl : Locator.of run.url = .ok l)
    (hf : run.fields.IsValid) (hstore : run.CanStore (run.expected store l)) :
    ∃ after, (∀ clock, ((Store.load clock run.path).execute run.finished.disk).1 = .ok after) ∧
      Store.get after l = some (run.expected store l) ∧
      ∀ k ≠ l,
        (Store.get store k ≠ none → Digest.ofText k.url ≠ Digest.ofText l.url) →
          Store.get after k = Store.get store k := by
  obtain ⟨-, ⟨k, hlies⟩, text, htext, hfiles⟩ := hopens.finished_of_valid hl hf hstore
  obtain ⟨hlocator, hb⟩ := hopens.expected_spec hl hf
  have hkey : Keyed.key (run.expected store l) = l := hlocator
  have hcontent := valueOfBytes_recordText hb.toIsCanonical htext
  have hnamed := run.holdsNamed_isExportable
  rw [← hkey] at hfiles
  have hkeeps : HoldsNamed (Store.Keeps fun _ => True) run.path run.finished.disk :=
    (hnamed.of_rewritten hfiles hcontent hb).mono fun _ _ _ hb =>
      ⟨hb.toIsCanonical, hb.hasCreated, hb.hasModified, trivial⟩
  obtain ⟨after, -, -, hvalues, hload⟩ := Store.exists_load hlies hkeeps
  refine ⟨after, fun clock => (hload clock).1, ?_, ?_⟩
  · have hself := hnamed.lastHeld?_self hfiles hcontent
    rw [hkey] at hself
    rw [hvalues, hself]
  · intro key hne hdigest
    rw [hvalues, hopens.values]
    refine hnamed.lastHeld?_other hfiles hcontent (by rwa [hkey]) ?_
    rw [← hopens.values, hkey]
    exact fun hheld hname => hdigest hheld (fileName_inj.mp hname)

/-- A URL or a color that is none ends the run, and no record file changes. -/
theorem Opens.finished_of_invalid (hopens : run.Opens store)
    (hinvalid : (∀ l, Locator.of run.url ≠ .ok l) ∨ ¬ run.fields.IsValid) :
    run.finished.code = 1 ∧ Disk.Spares isRecordName run.disk run.finished.disk := by
  obtain ⟨fault, hfault, hkind⟩ : ∃ fault,
      Command.requested run.url run.fields store = .error fault ∧ fault.isBadValue = true := by
    cases hl : Locator.of run.url with
    | error fault =>
        refine ⟨.url fault, ?_, rfl⟩
        rw [Command.requested, Locator.ofJson_text, hl]
        rfl
    | ok l =>
        rw [Command.requested_of_ok hl]
        exact Command.bookmarkFor_of_invalid hl (hinvalid.resolve_left fun h => h l hl) _
  have hdone := Command.add_apply_of_error hopens.opened hkind hfault
  have hfinished : run.finished = Session.finish 1
      (Command.tell ("Error: " ++ fault.message) run.opened).2 := by
    rw [finished, Session.run_eq run.isUnderstood, Command.ofInvocation, run.isAdd]
    simp only [hdone]
    rfl
  rw [hfinished]
  exact ⟨rfl, run.entered_spec.2.1.trans hopens.spares.disk⟩

end AddRun

/-- A run that adds a bookmark enters its store without a change to any record file. If its URL and
its color are valid and the record can be stored, it ends well. Opened again, the store then has at
the locator of the URL the bookmark that was there, or a blank one, with exactly the given fields,
modified at the moment of the run; fields that are given without text are cleared, and the bookmarks
of all other locators are as they were, but for one whose digest is the same. If the URL or the
color is not valid, the run ends with a failure, and no record file has changed. -/
theorem add_updates (run : AddRun) :
    Disk.Spares isRecordName run.disk run.entered.journal.disk ∧
    ∃ before, (∀ clock,
        ((Store.load clock run.path).execute run.entered.journal.disk).1 = .ok before) ∧
      (∀ l, Locator.of run.url = .ok l → run.fields.IsValid →
        run.CanStore (run.expected before l) →
        run.finished.code = 0 ∧ run.fields.Clears (run.expected before l) ∧
        ∃ after, (∀ clock,
            ((Store.load clock run.path).execute run.finished.disk).1 = .ok after) ∧
          Store.get after l = some (run.expected before l) ∧
          ∀ k ≠ l, (Store.get before k ≠ none → Digest.ofText k.url ≠ Digest.ofText l.url) →
            Store.get after k = Store.get before k) ∧
      ((∀ l, Locator.of run.url ≠ .ok l) ∨ ¬ run.fields.IsValid →
        run.finished.code = 1 ∧ Disk.Spares isRecordName run.disk run.finished.disk) := by
  obtain ⟨before, hopens⟩ := run.exists_opens
  refine ⟨run.entered_spec.2.1, before, hopens.loads, ?_, hopens.finished_of_invalid⟩
  intro l hl hf hstore
  exact ⟨(hopens.finished_of_valid hl hf hstore).1, GivenFields.appliedTo_clears _ _ _,
    hopens.exists_after hl hf hstore⟩

/-! A page on a shelf is given another title and other tags, and loses its color. A color that is
none is refused. -/

open Store

def adder : Surroundings := ⟨⟨[("HOME", "/ann")]⟩, midnight, .utc⟩

def pageFile : String := (recordText (completePage "http://a.org/")).toOption.getD ""

def pageShelf : Disk := shelf [(fileName "http://a.org/", pageFile)]

def adding (fields : GivenFields) : Invocation :=
  ⟨false, false, some (.ofText "shelf"), .add "a.org" fields⟩

/-- What every addition begins with. -/
def addingStart : Session := Session.start adder pageShelf (adding ⟨none, [], none, none⟩)

/-- Whether the only record file of a directory is that of the page. -/
def holdsPage (p : Path) (d : Disk) : Bool :=
  (d.names p).contains (fileName "http://a.org/") &&
    (d.names p).all fun name => !isRecordName name ||
      decide (name = fileName "http://a.org/" ∧
        (d.read (p.child name)).toOption.map ByteArray.data = some pageFile.toUTF8.data)

def entersPage : Except Stop Path × Session → Bool
  | (.ok p, session) => holdsPage p session.journal.disk
  | _ => false

theorem completePage_isComplete : (completePage "http://a.org/").IsComplete :=
  have hpage : (completePage "http://a.org/").IsCanonical := completePage_isCanonical rfl
  ⟨⟨hpage.created, hpage.modified, hpage.lastVisited⟩, hpage.url, hpage.title, hpage.notes,
    .inl rfl, rfl, rfl⟩

theorem records_of_holdsPage {p : Path} {d : Disk} (h : holdsPage p d = true) :
    (∀ name, name ∈ recordNames d p ↔ name = fileName "http://a.org/") ∧
      readRecord d (p.child (fileName "http://a.org/")) = .ok (completePage "http://a.org/") := by
  obtain ⟨hfound, hall⟩ := Bool.and_eq_true_iff.mp h
  have hpage : ∀ name ∈ d.names p, isRecordName name = true → name = fileName "http://a.org/" ∧
      (d.read (p.child name)).toOption.map ByteArray.data = some pageFile.toUTF8.data := by
    intro name hmem hname
    simpa [hname] using List.all_eq_true.mp hall name hmem
  have hmem : fileName "http://a.org/" ∈ d.names p := List.contains_iff_mem.mp hfound
  constructor
  · intro name
    rw [recordNames, List.mem_mergeSort, List.mem_filter]
    constructor
    · exact fun hname => (hpage name hname.1 hname.2).1
    · rintro rfl
      exact ⟨hmem, isRecordName_fileName _⟩
  · obtain ⟨content, hcontent, hdata⟩ :=
      Option.map_eq_some_iff.mp (hpage _ hmem (isRecordName_fileName _)).2
    obtain rfl : content = pageFile.toUTF8 := ByteArray.ext hdata
    have hread := toOption_eq_some.mp hcontent
    have hcanonical : (completePage "http://a.org/").IsCanonical := completePage_isCanonical rfl
    obtain ⟨text, htext⟩ := hcanonical.isReadFromTexts.isTextual.recordText_eq.2 rfl
    rw [readRecord, hread, pageFile, htext]
    exact valueOfBytes_recordText hcanonical htext

theorem holdsNamed_of_holdsPage {p : Path} {d : Disk} (h : holdsPage p d = true) :
    HoldsNamed Bookmark.IsComplete p d := by
  obtain ⟨hnames, hread⟩ := records_of_holdsPage h
  intro name hname
  obtain rfl := (hnames name).mp hname
  exact ⟨_, hread, rfl, completePage_isComplete⟩

/-- A run on the shelf of the page that is not hindered, and finds the page there. -/
theorem exists_addRun {args : List String} {fields : GivenFields}
    (hread : Invocation.read pageShelf none args = .ok (adding fields))
    (henters : entersPage (Command.enter adder (some (.ofText "shelf")) addingStart) = true)
    (hclear : opensClear ["shelf"]
      (Command.openStore adder (some (.ofText "shelf")) addingStart) = true) :
    ∃ run : AddRun, run.args = args ∧ run.url = "a.org" ∧ run.fields = fields ∧
      run.now = midnight ∧ (∀ b, run.CanStore b) ∧ ∀ before,
        (∀ clock, ((load clock run.path).execute run.entered.journal.disk).1 = .ok before) →
          ∀ key b, get before key = some b ↔
            key = ⟨"http://a.org/"⟩ ∧ b = completePage "http://a.org/" := by
  rcases hentered : Command.enter adder (some (.ofText "shelf")) addingStart with ⟨result, session⟩
  rw [hentered] at henters
  cases result with
  | error why => cases henters
  | ok p =>
      have hurl : Locator.of "a.org" = .ok ⟨"http://a.org/"⟩ := rfl
      have hsettled : ∀ l, Locator.of "a.org" = .ok l → Locator.of l.url = .ok l := by
        intro l hl
        cases hurl.symm.trans hl
        rfl
      have hmoment : midnight.wholeSecond = midnight := by decide
      let run : AddRun := ⟨adder, pageShelf, args, adding fields, "a.org", fields, p, session,
        hread, rfl, hentered, holdsNamed_of_holdsPage henters, ⟨by decide, by decide⟩, hsettled⟩
      obtain ⟨store, hopens⟩ := run.exists_opens
      refine ⟨run, rfl, rfl, rfl, hmoment, ?_, ?_⟩
      · intro b text _
        have hopened : Command.openStore adder (some (.ofText "shelf")) addingStart =
            (.ok store, run.opened) := hopens.opened
        rw [hopened] at hclear
        have hready := isUnobstructed_of_opensClear hclear
        rw [hopens.path] at hready
        have hrefusal : run.opened.journal.disk.refusal? = fun _ => none :=
          hopens.spares.refusal.trans run.entered_spec.2.1.refusal
        obtain ⟨files, hstored, -⟩ := hready.store_eq_ok (fun _ => congrFun hrefusal _)
          (fun _ _ => congrFun hrefusal _) (fun _ _ => congrFun hrefusal _) b.url text.toUTF8
        rw [hstored]
      · intro before hbefore key b
        obtain rfl := Except.ok.inj ((hopens.loads fun _ => noon).symm.trans (hbefore _))
        obtain ⟨hnames, hpage⟩ := records_of_holdsPage henters
        rw [hopens.values, run.isShelf.lastHeld?_eq_some_iff, mem_records_iff_mem, hnames]
        constructor
        · rintro ⟨⟨hname, hb⟩, rfl⟩
          rw [hname] at hb
          obtain rfl := Except.ok.inj (hpage.symm.trans hb)
          exact ⟨rfl, rfl⟩
        · rintro ⟨rfl, rfl⟩
          exact ⟨⟨rfl, hpage⟩, rfl⟩

def newFields : GivenFields := ⟨some "New", ["x,Y"], some " ", none⟩

/-- The page with a new title, new tags and no color. -/
def newPage : Bookmark :=
  { completePage "http://a.org/" with
    title := .text "New"
    tags := .names (.ofList ["x", "y"])
    color := .null
    modified := some midnight }

theorem appliedTo_newFields :
    newFields.appliedTo (completePage "http://a.org/") midnight = newPage := by
  have htags : Command.tagNames ["x,Y"] = ["x", "y"] := by decide +kernel
  simp only [GivenFields.appliedTo, newFields, htags]
  rfl

theorem add_updates_page :
    (∃ run : AddRun,
      run.args = ["--store", "shelf", "add", "a.org", "-t", "New", "-g", "x,Y", "--color", " "] ∧
      run.finished.code = 0 ∧ ∃ after,
        (∀ clock, ((load clock run.path).execute run.finished.disk).1 = .ok after) ∧
          get after ⟨"http://a.org/"⟩ = some newPage ∧
          ∀ key ≠ ⟨"http://a.org/"⟩, get after key = none) ∧
    ∃ run : AddRun, run.args = ["--store", "shelf", "add", "a.org", "--color", "red"] ∧
      run.finished.code = 1 ∧ Disk.Spares isRecordName run.disk run.finished.disk := by
  have henters : entersPage (Command.enter adder (some (.ofText "shelf")) addingStart) = true := by
    decide +kernel
  have hclear : opensClear ["shelf"]
      (Command.openStore adder (some (.ofText "shelf")) addingStart) = true := by
    decide +kernel
  constructor
  · have hread : Invocation.read pageShelf none ["--store", "shelf", "add", "a.org", "-t", "New",
        "-g", "x,Y", "--color", " "] = .ok (adding newFields) := by
      decide +kernel
    obtain ⟨run, hargs, hurl, hfields, hnow, hstore, hpage⟩ := exists_addRun hread henters hclear
    obtain ⟨-, before, hbefore, hvalid, -⟩ := add_updates run
    have hl : Locator.of run.url = .ok ⟨"http://a.org/"⟩ := by
      rw [hurl]
      rfl
    have hf : run.fields.IsValid := by
      rw [hfields]
      rintro c ⟨⟩
      decide
    obtain ⟨hcode, -, after, hafter, hget, hothers⟩ := hvalid _ hl hf (hstore _)
    refine ⟨run, hargs, hcode, after, hafter, ?_, ?_⟩
    · rw [hget, AddRun.expected, (hpage before hbefore _ _).mpr ⟨rfl, rfl⟩, hfields, hnow,
        Option.getD_some, appliedTo_newFields]
    · intro key hne
      have hnone : get before key = none :=
        Option.eq_none_iff_forall_ne_some.mpr fun b hb => hne ((hpage before hbefore key b).mp hb).1
      exact (hothers key hne fun hheld => absurd hnone hheld).trans hnone
  · have hread : Invocation.read pageShelf none ["--store", "shelf", "add", "a.org", "--color",
        "red"] = .ok (adding ⟨none, [], some "red", none⟩) := by
      decide +kernel
    obtain ⟨run, hargs, -, hfields, -⟩ := exists_addRun hread henters hclear
    obtain ⟨-, before, -, -, hinvalid⟩ := add_updates run
    refine ⟨run, hargs, hinvalid (.inr ?_)⟩
    rw [hfields]
    exact fun hf => hf "red" rfl (by decide)

end LinkShelf
