import LinkShelf.CommandLine.Run
import LinkShelf.Proofs.Store.Upkeep

/-!
What runs of the program keep true of the record files of one directory, wherever the store of a run
lies and whatever fails. Main statement: if all bookmarks that the requests write are of some kind,
the record files stay as described (`run_holdsOnly`). Journals, crash logs and configurations are
never record files.
-/

namespace LinkShelf

open Operation RecordDirectory

variable {Q : String → ByteArray → Prop} {l : Location}

/-! ## Journals -/

/-- Whether a handler writes to no record file. -/
def Handler.IsDiscreet (h : Handler) : Prop :=
  ∀ place, h.outlet = .file place → ∃ m name, place = m ++ [name] ∧ isRecordName name = false

namespace Journal

variable {j : Journal} {s : Surroundings}

/-- Whether a journal has the handlers of another one, and its disk the device and the record
files, in every directory. -/
structure Spares (j after : Journal) : Prop where
  agree : ∀ l, Disk.Agree isRecordName l j.disk after.disk
  refusal : after.disk.refusal? = j.disk.refusal?
  handlers : after.handlers = j.handlers

theorem Spares.refl : Spares j j := ⟨fun _ => .refl, rfl, rfl⟩

theorem Spares.trans {mid after : Journal} (h : Spares j mid) (h' : Spares mid after) :
    Spares j after :=
  ⟨fun l => (h.agree l).trans (h'.agree l), h'.refusal.trans h.refusal,
    h'.handlers.trans h.handlers⟩

theorem Spares.disk {after : Journal} (h : Spares j after) :
    Disk.Spares isRecordName j.disk after.disk :=
  Disk.spares_of_agree h.agree h.refusal

theorem spares_handle (e : Event) {h : Handler} (hh : h.IsDiscreet) (j : Journal) :
    Spares j (handle s e j h) := by
  rw [handle]
  split
  · exact .refl
  · split
    · exact ⟨fun _ => .refl, rfl, rfl⟩
    · next place houtlet =>
        split
        · next content hfile =>
            obtain ⟨m, name, rfl, hhidden⟩ := hh place houtlet
            refine ⟨fun l => Disk.agree_put_file hhidden ?_, rfl, rfl⟩
            rw [FileSystem.file?] at hfile
            split at hfile
            · next held hnode => simp [FileSystem.isDirectory, hnode]
            · cases hfile
        · exact .refl
    · exact .refl

theorem spares_write (hj : ∀ h ∈ j.handlers, h.IsDiscreet) (e : Event) :
    Spares j (j.write s e) := by
  have hall : ∀ (handlers : List Handler) (j : Journal), (∀ h ∈ handlers, h.IsDiscreet) →
      Spares j (handlers.foldl (handle s e) j) := by
    intro handlers
    induction handlers with
    | nil => exact fun j _ => .refl
    | cons h rest ih =>
        intro j hhandlers
        obtain ⟨hh, hrest⟩ := List.forall_mem_cons.mp hhandlers
        exact (spares_handle e hh j).trans (ih _ hrest)
  rw [write]
  split
  · exact .refl
  · split
    · split
      · exact .refl
      · exact ⟨fun _ => .refl, rfl, rfl⟩
    · refine hall _ j ?_
      split
      · exact hj
      · nofun

theorem spares_writeAll (hj : ∀ h ∈ j.handlers, h.IsDiscreet) (events : List Event) :
    Spares j (events.foldl (fun j e => j.write s e) j) := by
  induction events generalizing j with
  | nil => exact .refl
  | cons e rest ih =>
      have hfirst := spares_write (s := s) hj e
      exact hfirst.trans (ih (hfirst.handlers ▸ hj))

theorem absolute_child (d : Disk) (p : Path) {name : String} (hname : name ≠ "..") :
    d.absolute (p.child name) = (d.absolute p).child name := by
  simp only [Disk.absolute, Path.child, ← List.append_assoc, List.foldl_append, List.foldl_cons,
    List.foldl_nil, if_neg hname]
  rfl

theorem ends_attempt_disk {f : Disk → Except FileFault Unit × Disk} {d : Disk}
    (hf : Disk.Spares isRecordName d (f d).2) :
    (Disk.attempt f).Ends d fun _ after => Disk.Spares isRecordName d after := by
  refine Disk.ends_attempt (fun u after hrun => ?_) fun fault after hrun => ?_
  · rwa [hrun] at hf
  · rwa [hrun] at hf

/-- The operations log is no record file. -/
theorem openFile_ends (directory : Path) :
    (openFile directory).Ends j fun _ after => Disk.Spares isRecordName j.disk after.disk ∧
      ∀ h ∈ after.handlers, h ∈ j.handlers ∨ h.IsDiscreet := by
  have hname : fileName ≠ ".." := by decide
  have hhidden : isRecordName fileName = false := by decide
  have hopened : (within (·.disk) (fun disk (j : Journal) => { j with disk }) do
      let d ← Operation.current
      let log := d.absolute (directory.child fileName)
      Disk.attempt (Disk.makeDirectories directory)
      Disk.attempt (Disk.append log .empty)
      return log.parts).Ends j fun result after =>
        Disk.Spares isRecordName j.disk after.disk ∧ after.handlers = j.handlers ∧
          ∀ place, result = .ok place → ∃ m, place = m ++ [fileName] := by
    refine ends_within (ends_current_bind.mpr ?_)
    rw [absolute_child j.disk directory hname]
    refine ends_bind (ends_attempt_disk (Disk.spares_makeDirectories directory _)) ?_ ?_
    · intro u made hmade
      refine ends_bind (ends_attempt_disk (Disk.spares_append hname hhidden _ _ made)) ?_ ?_
      · intro u last hlast
        refine ends_pure.mpr ⟨hmade.trans hlast, rfl, ?_⟩
        exact fun place hplace => ⟨_, (Except.ok.inj hplace).symm⟩
      · exact fun fault last hlast => ⟨hmade.trans hlast, rfl, nofun⟩
    · exact fun fault made hmade => ⟨hmade, rfl, nofun⟩
  refine ends_bind hopened ?_ ?_
  · rintro place after ⟨hspares, hhandlers, hplace⟩
    refine ends_current_bind.mpr (ends_change_bind.mpr (ends_pure.mpr ⟨hspares, ?_⟩))
    intro h hh
    obtain hold | hnew := List.mem_append.mp hh
    · exact .inl (hhandlers ▸ hold)
    · obtain rfl := List.mem_singleton.mp hnew
      obtain ⟨m, rfl⟩ := hplace place rfl
      refine .inr ?_
      rintro place ⟨⟩
      exact ⟨m, fileName, rfl, hhidden⟩
  · rintro fault after ⟨hspares, hhandlers, -⟩
    exact ⟨hspares, fun h hh => .inl (hhandlers ▸ hh)⟩

end Journal

namespace Config

/-- The configuration is no record file. -/
theorem save_ends (c : Config) (d : Disk) :
    (save c).Ends d fun _ after => Disk.Spares isRecordName d after := by
  refine ends_bind (Journal.ends_attempt_disk (Disk.spares_makeDirectories c.directory d)) ?_
    fun _ _ hmade => hmade
  intro u made hmade
  have hwrite : ∀ content,
      Disk.Spares isRecordName made (made.write (c.directory.child fileName) content).2 :=
    fun content => Disk.spares_write (by decide) (by decide) c.directory content made
  refine ends_bind (Journal.ends_attempt_disk (hwrite _)) ?_ fun _ _ hwritten =>
    hmade.trans hwritten
  intro u written hwritten
  split
  · exact fun _ => hmade.trans hwritten
  · exact ends_pure.mpr (hmade.trans hwritten)

theorem loadOrCreate_ends (s : Surroundings) (d : Disk) :
    (loadOrCreate s none).Ends d fun _ after => Disk.Spares isRecordName d after := by
  refine ends_settled_bind ?_ fun _ _ => .refl
  intro directory _
  refine ends_current_bind.mpr (ends_settled_bind ?_ fun _ _ => .refl)
  intro found _
  split
  · cases load d directory with
    | ok c => exact ends_pure.mpr .refl
    | error fault => exact fun _ => .refl
  · refine ends_bind (save_ends _ d) ?_ fun _ _ hsaved => hsaved
    exact fun u saved hsaved => ends_pure.mpr hsaved

end Config

/-! ## Parts of a run -/

/-- Whether the record files at a location are as described, and no handler writes to record
files. -/
structure Session.Guards (Q : String → ByteArray → Prop) (l : Location) (session : Session) :
    Prop where
  files : HoldsOnly Q l session.journal.disk
  handlers : ∀ h ∈ session.journal.handlers, h.IsDiscreet

namespace Command

variable {α β : Type} {E W : Bookmark → Prop} {s : Surroundings} {session : Session}

/-- What a run does before it reads a store: it looks where that lies, makes the directory, and
opens the operations log in it. -/
def enter (s : Surroundings) (given : Option Path) : Command Path := do
  let config ← refusing isUnopened (← onDisk s (Config.loadOrCreate s none))
  let path ← refusing isUnopened (config.storePathFor s.environment given)
  refusing isUnopened (← onDisk s (Disk.attempt (Disk.makeDirectories path)))
  let _ ← refusing isUnopened (← onJournal (Journal.openFile path))
  return path

theorem openStore_eq (s : Surroundings) (given : Option Path) :
    openStore s given = (do
      let path ← enter s given
      refusing isUnopened (← onDisk s (Store.load (fun _ => s.now.wholeSecond) path))) := by
  simp only [openStore, enter, bind_assoc, pure_bind]

/-- Whether a part of a run keeps the record files at a location as described, and what it gives is
so as well. -/
def Upholds (Q : String → ByteArray → Prop) (l : Location) (c : Command α) (session : Session)
    (post : α → Session → Prop) : Prop :=
  (c session).2.Guards Q l ∧ ∀ a, (c session).1 = .ok a → post a (c session).2

theorem upholds_pure {a : α} {post : α → Session → Prop} (h : session.Guards Q l)
    (hpost : post a session) : (pure a : Command α).Upholds Q l session post := by
  refine ⟨h, ?_⟩
  rintro _ ⟨⟩
  exact hpost

theorem upholds_stop {post : α → Session → Prop} (h : session.Guards Q l) (why : Stop) :
    (stop why : Command α).Upholds Q l session post :=
  ⟨h, nofun⟩

theorem upholds_bind {c : Command α} {next : α → Command β} {mid : α → Session → Prop}
    {post : β → Session → Prop} (hfirst : c.Upholds Q l session mid)
    (hnext : ∀ a after, after.Guards Q l → mid a after → (next a).Upholds Q l after post) :
    (c >>= next).Upholds Q l session post := by
  obtain ⟨hguards, hmid⟩ := hfirst
  change (ExceptT.bindCont next (c session).1 (c session).2).2.Guards Q l ∧
    ∀ b, (ExceptT.bindCont next (c session).1 (c session).2).1 = .ok b →
      post b (ExceptT.bindCont next (c session).1 (c session).2).2
  cases hresult : (c session).1 with
  | ok a => exact hnext a _ hguards (hmid a hresult)
  | error why => exact ⟨hguards, nofun⟩

/-- What comes first may give anything. -/
theorem upholds_then {c : Command α} {next : α → Command β} {post : β → Session → Prop}
    (hfirst : c.Upholds Q l session fun _ _ => True)
    (hnext : ∀ a after, after.Guards Q l → (next a).Upholds Q l after post) :
    (c >>= next).Upholds Q l session post :=
  upholds_bind hfirst fun a after hafter _ => hnext a after hafter

/-- Whichever comes first may give anything. -/
theorem upholds_ite_then {p : Prop} [Decidable p] {c other : Command α} {next : α → Command β}
    {post : β → Session → Prop} (hfirst : c.Upholds Q l session fun _ _ => True)
    (hother : other.Upholds Q l session fun _ _ => True)
    (hnext : ∀ a after, after.Guards Q l → (next a).Upholds Q l after post) :
    (if p then c >>= next else other >>= next).Upholds Q l session post := by
  split
  · exact upholds_then hfirst hnext
  · exact upholds_then hother hnext

section

variable {post : α → Session → Prop} (h : session.Guards Q l)

include h

theorem upholds_tell (line : String) : (tell line).Upholds Q l session fun _ _ => True :=
  ⟨⟨h.files, h.handlers⟩, fun _ _ => trivial⟩

theorem upholds_say (line : String) : (say line).Upholds Q l session fun _ _ => True :=
  ⟨⟨h.files, h.handlers⟩, fun _ _ => trivial⟩

theorem upholds_refuse (message : String) :
    (refuse message : Command α).Upholds Q l session post :=
  upholds_then (upholds_tell h _) fun _ _ hafter => upholds_stop hafter _

theorem upholds_attempt {result : Except Failure α}
    (hpost : ∀ a, result = .ok a → post a session) : (attempt result).Upholds Q l session post := by
  cases result with
  | ok a => exact upholds_pure h (hpost a rfl)
  | error fault => exact upholds_stop h _

theorem upholds_refusing {result : Except Failure α} (foreseen : Failure → Bool)
    (hpost : ∀ a, result = .ok a → post a session) :
    (refusing foreseen result).Upholds Q l session post := by
  cases result with
  | ok a => exact upholds_pure h (hpost a rfl)
  | error fault =>
      rw [refusing]
      split
      · exact upholds_refuse h _
      · exact upholds_stop h _

/-- An outcome that is not refused changes nothing. -/
theorem upholds_refusing_bind {next : α → Command β} {last : β → Session → Prop}
    {result : Except Failure α} {foreseen : Failure → Bool}
    (hnext : ∀ a, result = .ok a → (next a).Upholds Q l session last) :
    (refusing foreseen result >>= next).Upholds Q l session last := by
  have hresult : (refusing foreseen result).Upholds Q l session fun a after =>
      result = .ok a ∧ after = session := upholds_refusing h foreseen fun a ha => ⟨ha, rfl⟩
  refine upholds_bind hresult ?_
  rintro a after - ⟨ha, rfl⟩
  exact hnext a ha

theorem upholds_report (e : Event) : (report s e).Upholds Q l session fun _ _ => True := by
  have hspares := Journal.spares_write (s := s) h.handlers e
  exact ⟨⟨h.files.of_spares hspares.disk, hspares.handlers ▸ h.handlers⟩, fun _ _ => trivial⟩

/-- What an operation on the disk reports is written to logs. -/
theorem upholds_onDisk {op : Operation Disk α} {ends : Except Failure α → Disk → Prop}
    (hop : op.Ends session.journal.disk fun result after =>
      HoldsOnly Q l after ∧ ends result after) :
    (onDisk s op).Upholds Q l session fun result after =>
      ∃ d, ends result d ∧ Disk.Spares isRecordName d after.journal.disk := by
  obtain ⟨hfiles, hends⟩ := hop.execute
  have hspares := Journal.spares_writeAll (s := s)
    (j := { session.journal with disk := (op.execute session.journal.disk).2.state }) h.handlers
    (op.execute session.journal.disk).2.events
  refine ⟨⟨hfiles.of_spares hspares.disk, hspares.handlers ▸ h.handlers⟩, ?_⟩
  rintro _ ⟨⟩
  exact ⟨_, hends, hspares.disk⟩

theorem upholds_onDisk_of_spares {op : Operation Disk α}
    (hop : op.Ends session.journal.disk fun _ after =>
      Disk.Spares isRecordName session.journal.disk after) :
    (onDisk s op).Upholds Q l session fun _ after =>
      Disk.Spares isRecordName session.journal.disk after.journal.disk := by
  have hends : op.Ends session.journal.disk fun _ after => HoldsOnly Q l after ∧
      Disk.Spares isRecordName session.journal.disk after :=
    hop.mono fun _ _ hspares => ⟨h.files.of_spares hspares, hspares⟩
  obtain ⟨hguards, hresult⟩ := upholds_onDisk h hends
  refine ⟨hguards, ?_⟩
  intro result hok
  obtain ⟨d, hd, hspares⟩ := hresult result hok
  exact hd.trans hspares

theorem upholds_onStore {store : RecordDirectory Bookmark Locator}
    {op : Operation (RecordDirectory Bookmark Locator) α}
    (hop : op.Ends { store with disk := session.journal.disk } fun _ after =>
      HoldsOnly Q l after.disk) :
    (onStore s store op).Upholds Q l session fun _ _ => True := by
  have hfiles := hop.execute
  have hspares := Journal.spares_writeAll (s := s)
    (j := { session.journal with
      disk := (op.execute { store with disk := session.journal.disk }).2.state.disk }) h.handlers
    (op.execute { store with disk := session.journal.disk }).2.events
  exact ⟨⟨hfiles.of_spares hspares.disk, hspares.handlers ▸ h.handlers⟩, fun _ _ => trivial⟩

theorem upholds_openFile (directory : Path) :
    (onJournal (Journal.openFile directory)).Upholds Q l session fun _ after =>
      Disk.Spares isRecordName session.journal.disk after.journal.disk := by
  obtain ⟨hspares, hhandlers⟩ := (Journal.openFile_ends directory).execute (s := session.journal)
  refine ⟨⟨h.files.of_spares hspares, ?_⟩, fun _ _ => hspares⟩
  intro handler hmem
  exact (hhandlers handler hmem).elim (h.handlers handler) id

/-- A directory that could be made is there. -/
theorem upholds_makeDirectories (p : Path) :
    (onDisk s (Disk.attempt (Disk.makeDirectories p))).Upholds Q l session fun result after =>
      Disk.Spares isRecordName session.journal.disk after.journal.disk ∧
        (result = .ok () → ∃ k, LiesAt after.journal.disk p k) := by
  have hmade : (Disk.attempt (Disk.makeDirectories p)).Ends session.journal.disk
      fun result after => HoldsOnly Q l after ∧
        Disk.Spares isRecordName session.journal.disk after ∧
        (result = .ok () → ∃ k, LiesAt after p k) := by
    have hspares : Disk.Spares isRecordName session.journal.disk
        (session.journal.disk.makeDirectories p).2 := Disk.spares_makeDirectories p _
    refine Disk.ends_attempt (fun u after hrun => ?_) fun fault after hrun => ?_
    · rw [hrun] at hspares
      obtain ⟨k, hlocated, hdirectory⟩ := Disk.exists_of_makeDirectories_eq_ok hrun
      exact ⟨h.files.of_spares hspares, hspares, fun _ => ⟨k, hlocated, hdirectory⟩⟩
    · rw [hrun] at hspares
      exact ⟨h.files.of_spares hspares, hspares, nofun⟩
  obtain ⟨hguards, hresult⟩ := upholds_onDisk h hmade
  refine ⟨hguards, fun result hok => ?_⟩
  obtain ⟨d, ⟨hspares, hplace⟩, hwritten⟩ := hresult result hok
  exact ⟨hspares.trans hwritten, fun hmade => (hplace hmade).imp fun k hk => hk.of_spares hwritten⟩

theorem upholds_enter (given : Option Path) :
    (enter s given).Upholds Q l session fun p after =>
      Disk.Spares isRecordName session.journal.disk after.journal.disk ∧
        ∃ k, LiesAt after.journal.disk p k := by
  refine upholds_bind (upholds_onDisk_of_spares h (Config.loadOrCreate_ends s _)) ?_
  intro read first hfirst hread
  refine upholds_refusing_bind hfirst fun config _ => upholds_refusing_bind hfirst fun path _ => ?_
  refine upholds_bind (upholds_makeDirectories hfirst path) ?_
  rintro made second hsecond ⟨hmade, hplace⟩
  refine upholds_refusing_bind hsecond fun u hu => ?_
  refine upholds_bind (upholds_openFile hsecond path) ?_
  intro number third hthird hlogged
  refine upholds_refusing_bind hthird fun _ _ => upholds_pure hthird ?_
  exact ⟨(hread.trans hmade).trans hlogged, (hplace hu).imp fun k hk => hk.of_spares hlogged⟩

theorem upholds_openStore (hQ : Discipline Q E W) (hregime : Store.Regime E W s.now.wholeSecond)
    (given : Option Path) :
    (openStore s given).Upholds Q l session fun store after =>
      (∃ k, Abides Q E l k { store with disk := after.journal.disk }) ∧
        after.journal.disk.refusal? = session.journal.disk.refusal? := by
  rw [openStore_eq]
  refine upholds_bind (upholds_enter h given) ?_
  rintro path entered hentered ⟨hspares, -⟩
  have hload := (Store.load_abides hQ hregime.completed hentered.files path).and
    (Store.load_refusal (fun _ => s.now.wholeSecond) path entered.journal.disk)
  simp only [and_assoc] at hload
  refine upholds_bind (upholds_onDisk hentered hload) ?_
  rintro loaded last hlast ⟨d, ⟨hopened, hrefusal⟩, hwritten⟩
  refine upholds_refusing hlast _ ?_
  intro store hstore
  obtain ⟨rfl, k, hk⟩ := hopened store hstore
  refine ⟨⟨k, hk.lies.of_spares hwritten, hlast.files, hk.entries⟩, ?_⟩
  exact hwritten.refusal.trans (hrefusal.trans hspares.refusal)

theorem upholds_forM (items : List α) {each : α → Command Unit}
    (heach : ∀ a session, session.Guards Q l → (each a).Upholds Q l session fun _ _ => True) :
    (items.forM each).Upholds Q l session fun _ _ => True := by
  induction items generalizing session with
  | nil => exact upholds_pure h trivial
  | cons a rest ih => exact upholds_then (heach a session h) fun _ _ hafter => ih hafter

theorem upholds_sayJson (layout : Json.Layout) (v : Json) :
    (sayJson layout v).Upholds Q l session fun _ _ => True := by
  rw [sayJson]
  split
  · exact upholds_stop h _
  · exact upholds_say h _

theorem upholds_sayBookmark (json : Bool) (b : Bookmark) :
    (sayBookmark json b).Upholds Q l session fun _ _ => True := by
  rw [sayBookmark]
  split
  · exact upholds_then (upholds_attempt h fun _ _ => trivial)
      fun record after hafter => upholds_sayJson hafter _ record
  · exact upholds_then (upholds_attempt h fun _ _ => trivial)
      fun details after hafter => upholds_say hafter details

theorem upholds_sayList (json : Bool) (bookmarks : List Bookmark) :
    (sayList json bookmarks).Upholds Q l session fun _ _ => True := by
  rw [sayList]
  split
  · exact upholds_then (upholds_attempt h fun _ _ => trivial)
      fun records after hafter => upholds_sayJson hafter _ _
  · refine upholds_forM h bookmarks ?_
    intro b session h
    exact upholds_then (upholds_attempt h fun _ _ => trivial)
      fun line after hafter => upholds_say hafter line

theorem upholds_locator (url : String) :
    (locator url).Upholds Q l session fun _ after => after = session := by
  rw [locator]
  split
  · exact upholds_pure h rfl
  · exact upholds_refuse h _

theorem upholds_found (url : String) (found? : Option α) :
    (found url found?).Upholds Q l session fun a after => found? = some a ∧ after = session := by
  cases found? with
  | some a => exact upholds_pure h ⟨rfl, rfl⟩
  | none => exact upholds_refuse h _

theorem upholds_compile (c : Config) (words : List String) :
    (compile s c words).Upholds Q l session fun _ _ => True := by
  rw [compile]
  refine upholds_ite_then (upholds_attempt h fun _ _ => trivial) (upholds_pure h trivial) ?_
  intro text after hafter
  refine upholds_then (upholds_attempt hafter fun _ _ => trivial) ?_
  intro today last hlast
  split
  · exact upholds_pure hlast trivial
  · exact upholds_refuse hlast _
  · exact upholds_stop hlast _

end

/-- Whether what requests write is of a kind, besides what they import. -/
structure Regime (E W : Bookmark → Prop) (now : Instant) : Prop extends Store.Regime E W now where
  added : ∀ {url fields existing b}, (∀ other, existing = some other → E other) →
    bookmarkFor url fields existing = .ok b → Store.IsStorable E W now b
  moved : ∀ {target b moved}, E b → b.replace [.locator target, .modified none] = .ok moved →
    Store.IsStorable E W now moved

/-- Bookmarks are added by adding the first of them and then the rest. -/
theorem ends_addAll_cons {now : Instant} {b : Bookmark} {rest : List Bookmark}
    {r : RecordDirectory Bookmark Locator}
    {mid : Except Failure Bookmark → RecordDirectory Bookmark Locator → Prop}
    {post : Except Failure Unit → RecordDirectory Bookmark Locator → Prop}
    (hadd : (Store.add now b).Ends r mid)
    (hrest : ∀ stored after, mid (.ok stored) after → (addAll now rest).Ends after post)
    (hfail : ∀ fault after, mid (.error fault) after → post (.error fault) after) :
    (addAll now (b :: rest)).Ends r post := by
  have hfirst : (do
      let _ ← Store.add now b
      pure PUnit.unit : Operation _ _).Ends r fun result after =>
        (∃ stored, result = .ok ⟨⟩ ∧ mid (.ok stored) after) ∨
          ∃ fault, result = .error fault ∧ mid (.error fault) after :=
    Operation.ends_bind hadd
      (fun stored _ hmid => Operation.ends_pure.mpr (.inl ⟨stored, rfl, hmid⟩))
      fun fault _ hmid => .inr ⟨fault, rfl, hmid⟩
  refine Operation.ends_bind hfirst ?_ ?_
  · rintro u after (⟨stored, -, hmid⟩ | ⟨fault, hfault, -⟩)
    · exact hrest stored after hmid
    · cases hfault
  · rintro fault after (⟨stored, hok, -⟩ | ⟨other, hother, hmid⟩)
    · cases hok
    · cases hother
      exact hfail fault after hmid

section

variable (hQ : Discipline Q E W) (hregime : Regime E W s.now.wholeSecond) (i : Invocation)
  (h : session.Guards Q l)

include hQ hregime h

theorem upholds_add (url : String) (fields : GivenFields) :
    (add s i url fields).Upholds Q l session fun _ _ => True := by
  refine upholds_bind (upholds_openStore h hQ hregime.toRegime i.store) ?_
  rintro store after hafter ⟨⟨k, hk⟩, -⟩
  have hbookmark : (refusing Failure.isBadValue (do
      let key ← Locator.ofJson (.text url)
      bookmarkFor url fields (Store.get store key))).Upholds Q l after fun b session =>
        (k = l → Store.IsStorable E W s.now.wholeSecond b) ∧
          Abides Q E l k { store with disk := session.journal.disk } := by
    refine upholds_refusing hafter _ ?_
    intro b hb
    obtain ⟨key, -, hb⟩ := bind_eq_ok.mp hb
    exact ⟨fun hkl => hregime.added (fun other hother => Store.of_get hk hkl hother) hb, hk⟩
  refine upholds_bind hbookmark ?_
  rintro b last hlast ⟨hb, hk⟩
  refine upholds_then (upholds_onStore hlast
    ((Store.add_abides hQ hk hb).mono fun _ _ hends => hends.files)) ?_
  intro stored after hafter
  exact upholds_then (upholds_attempt hafter fun _ _ => trivial)
    fun b last hlast => upholds_sayBookmark hlast _ b

theorem upholds_get (url : String) : (get s i url).Upholds Q l session fun _ _ => True := by
  refine upholds_bind (upholds_openStore h hQ hregime.toRegime i.store) ?_
  rintro store after hafter -
  refine upholds_bind (upholds_locator hafter url) ?_
  rintro key after hafter -
  refine upholds_bind (upholds_found hafter url _) ?_
  rintro b last hlast -
  exact upholds_sayBookmark hlast _ b

theorem upholds_remove (url : String) : (remove s i url).Upholds Q l session fun _ _ => True := by
  refine upholds_bind (upholds_openStore h hQ hregime.toRegime i.store) ?_
  rintro store after hafter ⟨⟨k, hk⟩, -⟩
  refine upholds_bind (upholds_locator hafter url) ?_
  rintro key _ hafter rfl
  refine upholds_then (upholds_onStore hafter
    ((Store.remove_abides hk key).mono fun _ _ hends => hends.files)) ?_
  intro removed after hafter
  refine upholds_then (upholds_attempt hafter fun _ _ => trivial) ?_
  intro removed after hafter
  refine upholds_bind (upholds_found hafter url removed) ?_
  rintro b last hlast -
  exact upholds_say hlast _

theorem upholds_move (old new : String) :
    (move s i old new).Upholds Q l session fun _ _ => True := by
  refine upholds_bind (upholds_locator h old) ?_
  rintro source _ h -
  refine upholds_bind (upholds_locator h new) ?_
  rintro target _ h -
  refine upholds_bind (upholds_openStore h hQ hregime.toRegime i.store) ?_
  rintro store after hafter ⟨⟨k, hk⟩, -⟩
  refine upholds_bind (upholds_found hafter old _) ?_
  rintro b _ hafter ⟨hb, rfl⟩
  have hmoved : (attempt (b.replace [.locator target, .modified none])).Upholds Q l _
      fun moved session => (k = l → Store.IsStorable E W s.now.wholeSecond moved) ∧
        Abides Q E l k { store with disk := session.journal.disk } :=
    upholds_attempt hafter fun moved hmoved =>
      ⟨fun hkl => hregime.moved (Store.of_get hk hkl hb) hmoved, hk⟩
  refine upholds_bind hmoved ?_
  rintro moved last hlast ⟨hmoved, hk⟩
  refine upholds_then (upholds_onStore hlast
    ((Store.replace_abides hQ hk b.locator hmoved).mono fun _ _ hends => hends.files)) ?_
  intro stored after hafter
  exact upholds_then (upholds_attempt hafter fun _ _ => trivial)
    fun b last hlast => upholds_sayBookmark hlast _ b

theorem upholds_visit (url : String) : (visit s i url).Upholds Q l session fun _ _ => True := by
  refine upholds_bind (upholds_openStore h hQ hregime.toRegime i.store) ?_
  rintro store after hafter ⟨⟨k, hk⟩, -⟩
  refine upholds_bind (upholds_locator hafter url) ?_
  rintro key _ hafter rfl
  refine upholds_then (upholds_onStore hafter
    ((Store.visit_abides hQ hk hregime.toRegime key).mono fun _ _ hends => hends.files)) ?_
  intro visited after hafter
  refine upholds_then (upholds_attempt hafter fun _ _ => trivial) ?_
  intro visited after hafter
  refine upholds_bind (upholds_found hafter url visited) ?_
  rintro b last hlast -
  exact upholds_sayBookmark hlast _ b

theorem upholds_find (words : List String) (limit : Option Int) :
    (find s i words limit).Upholds Q l session fun _ _ => True := by
  refine upholds_bind (upholds_onDisk_of_spares h (Config.loadOrCreate_ends s _)) ?_
  intro read after hafter _
  refine upholds_then (upholds_attempt hafter fun _ _ => trivial) ?_
  intro config after hafter
  refine upholds_then (upholds_compile hafter config words) ?_
  intro query after hafter
  refine upholds_bind (upholds_openStore hafter hQ hregime.toRegime i.store) ?_
  rintro store after hafter -
  refine upholds_then (upholds_attempt hafter fun _ _ => trivial) ?_
  intro results after hafter
  refine upholds_then (upholds_report hafter _) ?_
  exact fun _ last hlast => upholds_sayList hlast _ _

theorem upholds_tags : (tags s i).Upholds Q l session fun _ _ => True := by
  refine upholds_bind (upholds_openStore h hQ hregime.toRegime i.store) ?_
  rintro store after hafter -
  refine upholds_then (upholds_attempt hafter fun _ _ => trivial) ?_
  intro names after hafter
  split
  · exact upholds_sayJson hafter _ _
  · exact upholds_forM hafter names fun name session h => upholds_say h _

omit hregime h in
theorem addAll_abides {now : Instant} {k : Location} {bookmarks : List Bookmark}
    {r : RecordDirectory Bookmark Locator} (hr : Abides Q E l k r)
    (hbookmarks : ∀ b ∈ bookmarks, Store.IsStorable E W now b) :
    (addAll now bookmarks).Ends r fun _ after => Abides Q E l k after := by
  induction bookmarks generalizing r with
  | nil => exact Operation.ends_pure.mpr hr
  | cons b rest ih =>
      obtain ⟨hb, hrest⟩ := List.forall_mem_cons.mp hbookmarks
      exact ends_addAll_cons (Store.add_abides hQ hr fun _ => hb)
        (fun _ after hafter => ih hafter hrest) fun _ _ hafter => hafter

omit hQ hregime h in
/-- The bookmarks of a file are those of its records. -/
theorem exists_record_of_bookmarksOf {content : ByteArray} {bookmarks : List Bookmark}
    (hbookmarks : bookmarksOf content = .ok bookmarks) :
    ∀ b ∈ bookmarks, ∃ record, Bookmark.ofRecord record = .ok b := by
  rw [bookmarksOf] at hbookmarks
  split at hbookmarks
  · cases hbookmarks
  · split at hbookmarks
    · cases hbookmarks
    · obtain ⟨items, -, hitems⟩ := bind_eq_ok.mp hbookmarks
      obtain ⟨-, rfl⟩ := mapM_eq_ok_iff.mp hitems
      intro b hb
      obtain ⟨record, -, hrecord⟩ := List.mem_filterMap.mp hb
      exact ⟨record, toOption_eq_some.mp hrecord⟩

theorem upholds_importFile (file : Path)
    (himported : ∀ {record b}, Bookmark.ofRecord record = .ok b →
      Store.IsStorable E W s.now.wholeSecond b) :
    (importFile s i file).Upholds Q l session fun _ _ => True := by
  refine upholds_bind (upholds_onDisk_of_spares h (Operation.ends_current_bind.mpr ?_)) ?_
  · split
    · exact Operation.ends_pure.mpr .refl
    · exact fun _ => .refl
  intro read after hafter _
  refine upholds_then (upholds_attempt hafter fun _ _ => trivial) ?_
  intro content after hafter
  have hstored : ∀ bookmarks session, session.Guards Q l →
      bookmarksOf content = .ok bookmarks → (do
        let store ← openStore s i.store
        attempt (← onStore s store (addAll s.now.wholeSecond bookmarks))
        say ("Imported " ++ String.ofList (Nat.toDigits 10 bookmarks.length) ++ " bookmarks") :
          Command Unit).Upholds Q l session fun _ _ => True := by
    intro bookmarks session h hbookmarks
    refine upholds_bind (upholds_openStore h hQ hregime.toRegime i.store) ?_
    rintro store after hafter ⟨⟨k, hk⟩, -⟩
    have hall : ∀ b ∈ bookmarks, Store.IsStorable E W s.now.wholeSecond b := by
      intro b hb
      obtain ⟨record, hrecord⟩ := exists_record_of_bookmarksOf hbookmarks b hb
      exact himported hrecord
    refine upholds_then (upholds_onStore hafter
      ((addAll_abides hQ hk hall).mono fun _ _ hends => hends.files)) ?_
    intro added after hafter
    refine upholds_then (upholds_attempt hafter fun _ _ => trivial) ?_
    exact fun _ last hlast => upholds_say hlast _
  cases hbookmarks : bookmarksOf content with
  | ok bookmarks => exact hstored bookmarks after hafter hbookmarks
  | error fault =>
      dsimp only
      split
      · exact upholds_bind (upholds_refuse hafter _) fun _ _ _ => False.elim
      · exact upholds_bind (upholds_stop hafter _) fun _ _ _ => False.elim

/-- A request writes bookmarks of a kind if what it imports is of the kind. -/
theorem upholds_ofInvocation
    (himported : ∀ file, i.request = .importFile file →
      ∀ {record b}, Bookmark.ofRecord record = .ok b → Store.IsStorable E W s.now.wholeSecond b) :
    (ofInvocation s i).Upholds Q l session fun _ _ => True := by
  rw [ofInvocation]
  split
  · exact upholds_add hQ hregime i h _ _
  · exact upholds_get hQ hregime i h _
  · exact upholds_remove hQ hregime i h _
  · exact upholds_move hQ hregime i h _ _
  · exact upholds_visit hQ hregime i h _
  · exact upholds_find hQ hregime i h _ _
  · exact upholds_tags hQ hregime i h
  · next file hfile => exact upholds_importFile hQ hregime i h file (himported file hfile)
  · exact upholds_say h _

end

end Command

/-! ## Runs -/

namespace Session

variable {E W : Bookmark → Prop} {s : Surroundings} {d : Disk}

/-- What a run begins with, once its command line is understood. -/
def start (s : Surroundings) (d : Disk) (i : Invocation) : Session :=
  ⟨if i.verbose || s.environment.value? "TAGMARKS_VERBOSE" = some "1" then
    Journal.debug { disk := d } else Journal.quiet { disk := d }, ""⟩

theorem disk_start (i : Invocation) : (start s d i).journal.disk = d := by
  rw [start]
  split <;> rfl

theorem guards_start (h : HoldsOnly Q l d) (i : Invocation) : (start s d i).Guards Q l := by
  refine ⟨(disk_start i).symm ▸ h, ?_⟩
  rw [start]
  split
  · intro handler hhandler
    obtain rfl := List.mem_singleton.mp hhandler
    nofun
  · nofun

theorem disk_foldl_tell (lines : List String) (text : String → String) (j : Journal) :
    (lines.foldl (fun j line => j.tell (text line)) j).disk = j.disk := by
  induction lines generalizing j with
  | nil => rfl
  | cons line rest ih => exact ih _

theorem holdsOnly_crash {session : Session} (h : session.Guards Q l) (context : String)
    (store : Option Path) (f : Failure) : HoldsOnly Q l (crash s context store f session).disk := by
  have hhidden : isRecordName CrashLog.fileName = false := by decide
  have hrecorded := CrashLog.spares_record hhidden s f context store session.journal.disk
  have hdisk : (crash s context store f session).disk =
      (CrashLog.record s f context store session.journal.disk).2 :=
    disk_foldl_tell _ _ _
  rw [hdisk]
  exact h.files.of_spares hrecorded

/-- The record files at a location are as described after every run, whatever it is asked, if all
bookmarks that are written are of a kind. -/
theorem run_holdsOnly (hQ : Discipline Q E W) (hregime : Command.Regime E W s.now.wholeSecond)
    (h : HoldsOnly Q l d) (args : List String)
    (himported : ∀ i file,
      Invocation.read d (s.environment.path? "TAGMARKS_STORE_PATH") args = .ok i →
      i.request = .importFile file → ∀ {record b}, Bookmark.ofRecord record = .ok b →
        Store.IsStorable E W s.now.wholeSecond b) :
    HoldsOnly Q l (run s d args).disk := by
  simp only [run]
  split
  · exact h
  · next i hread =>
      have hends : ((Command.ofInvocation s i).run (start s d i)).2.Guards Q l :=
        (Command.upholds_ofInvocation hQ hregime i (guards_start h i)
          fun file => himported i file hread).1
      rw [start] at hends
      split
      · next session hrun =>
          rw [hrun] at hends
          exact hends.files
      · next code session hrun =>
          rw [hrun] at hends
          exact hends.files
      · next f session hrun =>
          rw [hrun] at hends
          exact holdsOnly_crash hends _ _ _

end Session

end LinkShelf
