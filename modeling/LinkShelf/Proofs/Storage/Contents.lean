import LinkShelf.Proofs.Operation
import LinkShelf.Proofs.Storage.Disk
import LinkShelf.Proofs.Storage.Entries
import LinkShelf.Proofs.Storage.RecordName
import Mathlib.Data.String.Basic

/-!
What the record files of a directory hold. Main statements: a directory is opened exactly if each of
its record files holds a value or is skipped, and then a key has the value of the last file that
holds one under it (`load_ends`); what a file system shows decides what its record files hold
(`records_congr`), and a file put into the directory or taken out of it changes that for its own
name alone (`mem_records_of_rewritten`).
-/

namespace LinkShelf.RecordDirectory

open Operation

variable {V K : Type} [Record V K] {d other : Disk} {p : Path} {l : Location} {name : String}
  {key : K} {v : V} {content : ByteArray}

/-! ## Files in order -/

def recordAt? (V : Type) {K : Type} [Record V K] (d : Disk) (p : Path) (name : String) :
    Option (String × V) :=
  (readRecord d (p.child name)).toOption.map (name, ·)

/-- The values that the record files of a directory hold, with the names of the files, in the order
of the names. -/
def records (V : Type) {K : Type} [Record V K] (d : Disk) (p : Path) : List (String × V) :=
  (recordNames d p).filterMap (recordAt? V d p)

/-- The last of the values that some files hold under a key. -/
def lastHeld? [DecidableEq K] (files : List (String × V)) (key : K) : Option V :=
  (files.filter fun f => Keyed.key f.2 = key).getLast?.map (·.2)

theorem recordAt?_eq_some {f : String × V} :
    recordAt? V d p name = some f ↔
      f.1 = name ∧ readRecord d (p.child name) = .ok f.2 := by
  obtain ⟨m, w⟩ := f
  rw [recordAt?]
  cases readRecord (V := V) d (p.child name) with
  | ok v => simp [Except.toOption, eq_comm]
  | error fault => simp [Except.toOption]

theorem mem_records_iff_mem :
    (name, v) ∈ records V d p ↔
      name ∈ recordNames d p ∧ readRecord d (p.child name) = .ok v := by
  rw [records, List.mem_filterMap]
  constructor
  · rintro ⟨m, hm, hread⟩
    obtain ⟨rfl, hv⟩ := recordAt?_eq_some.mp hread
    exact ⟨hm, hv⟩
  · rintro ⟨hname, hv⟩
    exact ⟨name, hname, recordAt?_eq_some.mpr ⟨rfl, hv⟩⟩

theorem pairwise_recordNames (d : Disk) (p : Path) : (recordNames d p).Pairwise (· ≤ ·) := by
  have hle : ∀ a b : String, (compare a b != .gt) = true ↔ a ≤ b := by
    intro a b
    rw [bne_iff_ne, ne_eq, compare_gt_iff_gt, not_lt]
  have hsorted : (recordNames d p).Pairwise fun a b => (compare a b != .gt) = true :=
    List.pairwise_mergeSort
      (fun a b c hab hbc => (hle a c).mpr (((hle a b).mp hab).trans ((hle b c).mp hbc)))
      (fun a b => by simpa [hle] using le_total a b) ((d.names p).filter isRecordName)
  exact hsorted.imp fun {a b} hab => (hle a b).mp hab

theorem recordNames_eq {names : List String} (hsorted : names.Pairwise (· ≤ ·))
    (hperm : names.Perm ((d.names p).filter isRecordName)) : recordNames d p = names :=
  ((List.mergeSort_perm _ _).trans hperm.symm).eq_of_pairwise (fun _ _ _ _ => le_antisymm)
    (pairwise_recordNames d p) hsorted

/-- Whether files are in the order of their names, and each holds one value. -/
structure InOrder (files : List (String × V)) : Prop where
  sorted : files.Pairwise fun f g => f.1 ≤ g.1
  functional : ∀ n v w, (n, v) ∈ files → (n, w) ∈ files → v = w

omit [Record V K] in
theorem InOrder.filter {files : List (String × V)} (h : InOrder files) (q : String × V → Bool) :
    InOrder (files.filter q) :=
  ⟨h.sorted.filter q, fun n v w hv hw =>
    h.functional n v w (List.mem_of_mem_filter hv) (List.mem_of_mem_filter hw)⟩

theorem inOrder_records (d : Disk) (p : Path) : InOrder (records V d p) := by
  constructor
  · refine List.Pairwise.filterMap (recordAt? V d p) ?_ (pairwise_recordNames d p)
    intro m n hmn f hf g hg
    rw [(recordAt?_eq_some.mp hf).1, (recordAt?_eq_some.mp hg).1]
    exact hmn
  · intro n v w hv hw
    have hread := (mem_records_iff_mem.mp hv).2
    rw [(mem_records_iff_mem.mp hw).2] at hread
    exact (Except.ok.inj hread).symm

section

variable [DecidableEq K] {files more : List (String × V)}

theorem lastHeld?_cons (f : String × V) (rest : List (String × V)) :
    lastHeld? (f :: rest) key =
      (lastHeld? rest key).or (if Keyed.key f.2 = key then some f.2 else none) := by
  by_cases hkey : Keyed.key f.2 = key
  · rw [lastHeld?, lastHeld?, List.filter_cons_of_pos (by simpa using hkey), List.getLast?_cons,
      if_pos hkey]
    cases (rest.filter fun f => decide (Keyed.key f.2 = key)).getLast? <;> rfl
  · rw [lastHeld?, lastHeld?, List.filter_cons_of_neg (by simpa using hkey), if_neg hkey,
      Option.or_none]

theorem lastHeld?_eq_none : lastHeld? files key = none ↔ ∀ f ∈ files, Keyed.key f.2 ≠ key := by
  simp [lastHeld?]

omit [Record V K] [DecidableEq K] in
theorem le_of_getLast?_eq_some {f g : String × V} (hsorted : files.Pairwise fun f g => f.1 ≤ g.1)
    (hlast : files.getLast? = some g) (hf : f ∈ files) : f.1 ≤ g.1 := by
  obtain ⟨front, rfl⟩ := List.getLast?_eq_some_iff.mp hlast
  rcases List.mem_append.mp hf with hf | hf
  · exact (List.pairwise_append.mp hsorted).2.2 f hf g (List.mem_singleton_self g)
  · rw [List.mem_singleton.mp hf]

/-- In files that are in order, the last value is that of the greatest name. -/
theorem lastHeld?_eq_some (h : InOrder files) :
    lastHeld? files key = some v ↔ ∃ n, (n, v) ∈ files ∧ Keyed.key v = key ∧
      ∀ m w, (m, w) ∈ files → Keyed.key w = key → m ≤ n := by
  have hmem : ∀ {n w}, (n, w) ∈ files.filter (fun f => Keyed.key f.2 = key) ↔
      (n, w) ∈ files ∧ Keyed.key w = key := by
    simp
  have hordered := (h.filter fun f => Keyed.key f.2 = key).sorted
  rw [lastHeld?, Option.map_eq_some_iff]
  constructor
  · rintro ⟨⟨n, u⟩, hlast, rfl⟩
    obtain ⟨hn, hkey⟩ := hmem.mp (List.mem_of_getLast? hlast)
    refine ⟨n, hn, hkey, ?_⟩
    intro m w hm hw
    exact le_of_getLast?_eq_some hordered hlast (hmem.mpr ⟨hm, hw⟩)
  · rintro ⟨n, hn, hkey, hmax⟩
    have hfound := hmem.mpr ⟨hn, hkey⟩
    cases hlast : (files.filter fun f => Keyed.key f.2 = key).getLast? with
    | none => rw [List.getLast?_eq_none_iff.mp hlast] at hfound; cases hfound
    | some g =>
        obtain ⟨m, w⟩ := g
        obtain ⟨hm, hw⟩ := hmem.mp (List.mem_of_getLast? hlast)
        obtain rfl : n = m :=
          le_antisymm (le_of_getLast?_eq_some hordered hlast hfound) (hmax m w hm hw)
        exact ⟨(n, w), rfl, h.functional n w v hm hn⟩

theorem lastHeld?_congr (h : InOrder files) (h' : InOrder more)
    (hmem : ∀ n w, Keyed.key w = key → ((n, w) ∈ more ↔ (n, w) ∈ files)) :
    lastHeld? more key = lastHeld? files key := by
  ext v
  rw [lastHeld?_eq_some h, lastHeld?_eq_some h']
  constructor
  · rintro ⟨n, hn, hkey, hmax⟩
    exact ⟨n, (hmem n v hkey).mp hn, hkey, fun m w hm hw => hmax m w ((hmem m w hw).mpr hm) hw⟩
  · rintro ⟨n, hn, hkey, hmax⟩
    exact ⟨n, (hmem n v hkey).mpr hn, hkey, fun m w hm hw => hmax m w ((hmem m w hw).mp hm) hw⟩

end

/-! ## Reading -/

/-- Whether a path leads to a directory. -/
structure LiesAt (d : Disk) (p : Path) (l : Location) : Prop where
  located : d.locate p = .ok l
  directory : d.files.isDirectory l = true

/-- Whether a record file holds a value or is skipped. -/
def IsHandled (V : Type) {K : Type} [Record V K] (d : Disk) (p : Path) (name : String) : Prop :=
  ∀ fault, readRecord (V := V) d (p.child name) = .error fault → fault.isUnreadableRecord = true

section

variable [DecidableEq K]

/-- How the reading of some files ends: with the last value under each key, or at a file that is
neither read nor skipped. -/
def ReadingEnds (d : Disk) (p : Path) (names : List String) (entries : Entries K V)
    (result : Except Failure (Entries K V)) : Prop :=
  (∃ found, result = .ok found ∧ (∀ name ∈ names, IsHandled V d p name) ∧
    ((Entries.keys entries).Nodup → (Entries.keys found).Nodup) ∧
    ∀ key, found.value? key =
      (lastHeld? (names.filterMap (recordAt? V d p)) key).or (entries.value? key)) ∨
  ∃ name ∈ names, ¬ IsHandled V d p name ∧ ∃ fault, result = .error fault ∧
    fault.isUnreadableRecord = false

theorem value?_put (entries : Entries K V) (v : V) :
    (entries.put (Keyed.key v) v).value? key =
      (if Keyed.key v = key then some v else none).or (entries.value? key) := by
  by_cases hkey : Keyed.key v = key
  · rw [if_pos hkey, Option.some_or, ← hkey, Entries.value?_put_self]
  · rw [if_neg hkey, Option.none_or, Entries.value?_put_other entries v hkey]

theorem ReadingEnds.cons_value {rest : List String} {entries : Entries K V}
    {result : Except Failure (Entries K V)} (hread : readRecord d (p.child name) = .ok v)
    (hrest : ReadingEnds d p rest (entries.put (Keyed.key v) v) result) :
    ReadingEnds d p (name :: rest) entries result := by
  have hat : recordAt? V d p name = some (name, v) := recordAt?_eq_some.mpr ⟨rfl, hread⟩
  rcases hrest with ⟨found, hfound, hhandled, hdistinct, hvalues⟩ | ⟨m, hm, hstop⟩
  · refine .inl ⟨found, hfound, ?_, fun h => hdistinct (Entries.nodup_keys_put h), ?_⟩
    · intro m hm
      rcases List.mem_cons.mp hm with rfl | hm
      · intro fault hfault
        rw [hread] at hfault
        cases hfault
      · exact hhandled m hm
    · intro key
      rw [hvalues key, List.filterMap_cons_some hat, lastHeld?_cons, value?_put, Option.or_assoc]
  · exact .inr ⟨m, List.mem_cons_of_mem name hm, hstop⟩

theorem ReadingEnds.cons_skipped {rest : List String} {entries : Entries K V}
    {result : Except Failure (Entries K V)}
    (hread : readRecord (V := V) d (p.child name) = .error fault)
    (hskip : fault.isUnreadableRecord = true) (hrest : ReadingEnds d p rest entries result) :
    ReadingEnds d p (name :: rest) entries result := by
  have hat : recordAt? V d p name = none := by
    rw [recordAt?, hread]
    rfl
  rcases hrest with ⟨found, hfound, hhandled, hdistinct, hvalues⟩ | ⟨m, hm, hstop⟩
  · refine .inl ⟨found, hfound, ?_, hdistinct, ?_⟩
    · intro m hm
      rcases List.mem_cons.mp hm with rfl | hm
      · intro other hother
        rw [hread] at hother
        rwa [← Except.error.inj hother]
      · exact hhandled m hm
    · intro key
      rw [hvalues key, List.filterMap_cons_none hat]
  · exact .inr ⟨m, List.mem_cons_of_mem name hm, hstop⟩

theorem readAll_ends (names : List String) (entries : Entries K V) :
    (readAll p names entries).Ends d fun result after =>
      after = d ∧ ReadingEnds d p names entries result := by
  -- the entries so far are what a key has that no later file holds
  induction names generalizing entries with
  | nil => exact ends_pure.mpr ⟨rfl, .inl ⟨entries, rfl, by simp, id, fun key => rfl⟩⟩
  | cons name rest ih =>
      refine ends_current_bind.mpr ?_
      cases hread : readRecord (V := V) d (p.child name) with
      | ok v =>
          have hrest := (ih (entries.put (Keyed.key v) v)).mono fun result after hends =>
            (⟨hends.1, hends.2.cons_value hread⟩ : after = d ∧
              ReadingEnds d p (name :: rest) entries result)
          dsimp only
          by_cases hname : name = fileName (Record.keyText V (Keyed.key v))
          · rw [if_neg (not_not_intro hname)]
            exact hrest
          · rw [if_pos hname]
            exact ends_report_bind hrest
      | error fault =>
          dsimp only
          cases hskip : fault.isUnreadableRecord with
          | true =>
              rw [if_pos rfl]
              refine ends_report_bind ((ih entries).mono ?_)
              rintro result after ⟨hafter, hends⟩
              exact ⟨hafter, hends.cons_skipped hread hskip⟩
          | false =>
              rw [if_neg Bool.false_ne_true]
              refine fun events => ⟨rfl, .inr ⟨name, List.mem_cons_self, ?_, fault, rfl, hskip⟩⟩
              intro hhandled
              rw [hhandled fault hread] at hskip
              cases hskip

/-- How a directory that is there is opened: exactly if each of its record files is read or skipped.
Its entries are then the last values of the files, and the disk is as it was. -/
structure Opening (d : Disk) (p : Path) (keyName : String)
    (result : Except Failure (RecordDirectory V K)) (after : Disk) : Prop where
  after : after = d
  outcome : (∃ entries, result = .ok ⟨d, p, keyName, entries⟩ ∧
      (∀ name ∈ recordNames d p, IsHandled V d p name) ∧ (Entries.keys entries).Nodup ∧
      ∀ key, entries.value? key = lastHeld? (records V d p) key) ∨
    ∃ name ∈ recordNames d p, ¬ IsHandled V d p name ∧ ∃ fault, result = .error fault ∧
      fault.isUnreadableRecord = false

theorem load_ends_of_made (d : Disk) (p : Path) (keyName : String) :
    (load p keyName : Operation Disk (RecordDirectory V K)).Ends d fun result after =>
      (∃ made, d.makeDirectories p = (.ok (), made) ∧ Opening made p keyName result after) ∨
      ∃ fault, d.makeDirectories p = (.error fault, after) ∧ result = .error (.file fault) := by
  refine Disk.ends_attempt_bind ?_ fun fault after hmake => .inr ⟨fault, hmake, rfl⟩
  intro u made hmake
  refine ends_current_bind.mpr (ends_bind (readAll_ends _ []) ?_ ?_)
  · rintro entries after ⟨rfl, hresult⟩
    rcases hresult with ⟨found, hfound, hhandled, hdistinct, hvalues⟩ |
      ⟨m, -, -, fault, hfault, -⟩
    · cases hfound
      refine ends_report_bind (ends_current_bind.mpr (ends_pure.mpr (.inl ⟨after, hmake, rfl,
        .inl ⟨entries, rfl, hhandled, hdistinct List.nodup_nil, ?_⟩⟩)))
      intro key
      rw [hvalues key, Entries.value?, Option.or_none]
      rfl
    · cases hfault
  · rintro fault after ⟨rfl, ⟨found, hfound, -⟩ | hstop⟩
    · cases hfound
    · obtain ⟨m, hm, hunhandled, other, hother, hkind⟩ := hstop
      cases hother
      exact .inl ⟨after, hmake, rfl, .inr ⟨m, hm, hunhandled, fault, rfl, hkind⟩⟩

theorem load_ends (h : LiesAt d p l) (keyName : String) :
    (load p keyName : Operation Disk (RecordDirectory V K)).Ends d (Opening d p keyName) := by
  refine (load_ends_of_made d p keyName).mono ?_
  have hthere := Disk.makeDirectories_of_isDirectory h.located h.directory
  rintro result after (⟨made, hmake, hopening⟩ | ⟨fault, hmake, -⟩)
  · cases hthere.symm.trans hmake
    exact hopening
  · cases hthere.symm.trans hmake

/-- Whether a map is as it was opened: its directory is there, its record files are handled, and its
entries are their last values. -/
structure IsOpened (l : Location) (r : RecordDirectory V K) : Prop where
  lies : LiesAt r.disk r.path l
  handled : ∀ name ∈ recordNames r.disk r.path, IsHandled V r.disk r.path name
  values : ∀ key, r.entries.value? key = lastHeld? (records V r.disk r.path) key

theorem isOpened_of_load {keyName : String} {r : RecordDirectory V K}
    (hload : ((load p keyName).execute d).1 = .ok r) : r.path = p ∧ ∃ l, IsOpened l r := by
  rcases (load_ends_of_made (V := V) d p keyName).execute with
    ⟨made, hmake, -, ⟨entries, hok, hhandled, -, hvalues⟩ | ⟨_, -, -, fault, hfault, -⟩⟩ |
    ⟨fault, -, hfault⟩
  · cases hok.symm.trans hload
    obtain ⟨l, hlocated, hdirectory⟩ := Disk.exists_of_makeDirectories_eq_ok hmake
    exact ⟨rfl, l, ⟨hlocated, hdirectory⟩, hhandled, hvalues⟩
  · cases hfault.symm.trans hload
  · cases hfault.symm.trans hload

theorem exists_load_eq_ok (h : LiesAt d p l)
    (hhandled : ∀ name ∈ recordNames d p, IsHandled V d p name) (keyName : String) :
    ∃ fresh : RecordDirectory V K, ((load p keyName).execute d).1 = .ok fresh ∧
      ∀ key, fresh.entries.value? key = lastHeld? (records V d p) key := by
  rcases (load_ends (V := V) h keyName).execute.outcome with
    ⟨entries, hok, -, -, hvalues⟩ | ⟨name, hname, hunhandled, -⟩
  · exact ⟨_, hok, hvalues⟩
  · exact absurd (hhandled name hname) hunhandled

end

/-! ## What is shown -/

def bytesAt? (d : Disk) (p : Path) (name : String) : Option ByteArray :=
  (d.read (p.child name)).toOption

/-- Whether a directory has the same record files on two disks, with the same bytes. -/
structure SameFiles (p : Path) (d other : Disk) : Prop where
  names : recordNames other p = recordNames d p
  bytes : ∀ name, isRecordName name = true → bytesAt? other p name = bytesAt? d p name

/-- Whether the record files of a directory are the same on two disks but for one name, under which
the second disk has a file with some bytes or none. -/
structure Rewritten (p : Path) (name : String) (content? : Option ByteArray) (d other : Disk) :
    Prop where
  names : ∀ n, n ∈ recordNames other p ↔
    if n = name then content?.isSome = true else n ∈ recordNames d p
  bytes : ∀ n, isRecordName n = true →
    bytesAt? other p n = if n = name then content? else bytesAt? d p n

theorem bytesAt?_eq_some :
    bytesAt? d p name = some content ↔ d.read (p.child name) = .ok content := by
  rw [bytesAt?]
  cases d.read (p.child name) <;> simp [Except.toOption]

theorem readRecord_eq_ok :
    readRecord d (p.child name) = .ok v ↔
      ∃ content, bytesAt? d p name = some content ∧ valueOfBytes content = .ok v := by
  rw [readRecord, bytesAt?]
  cases d.read (p.child name) <;> simp [Except.toOption]

/-- A file that cannot be read is passed over only for the sake of its path. -/
theorem read_eq_pathWithEnd {fault : FileFault} (hread : d.read (p.child name) = .error fault)
    (hskip : (Failure.file fault).isUnreadableRecord = true) (other : Disk) :
    other.read (p.child name) = .error .pathWithEnd := by
  have hend : fault = .pathWithEnd := by
    cases fault with
    | pathWithEnd => rfl
    | _ => cases hskip
  subst hend
  rw [Disk.read_eq_pathWithEnd_iff] at hread ⊢
  exact hread

theorem isHandled_congr (hbytes : bytesAt? other p name = bytesAt? d p name)
    (hhandled : IsHandled V d p name) : IsHandled V other p name := by
  intro fault hfault
  cases hread : d.read (p.child name) with
  | ok content =>
      have hother : other.read (p.child name) = .ok content := by
        rw [← bytesAt?_eq_some, hbytes, bytesAt?_eq_some]
        exact hread
      apply hhandled fault
      rw [readRecord, hread]
      rwa [readRecord, hother] at hfault
  | error cause =>
      have hskip := hhandled (.file cause) (by rw [readRecord, hread])
      rw [readRecord, read_eq_pathWithEnd hread hskip other] at hfault
      cases hfault
      rfl

theorem isRecordName_of_mem (hname : name ∈ recordNames d p) : isRecordName name = true := by
  rw [recordNames, List.mem_mergeSort, List.mem_filter] at hname
  exact hname.2

theorem records_congr (hsame : SameFiles p d other) : records V other p = records V d p := by
  rw [records, records, hsame.names]
  apply List.filterMap_congr
  intro name hname
  ext f
  simp only [recordAt?_eq_some, readRecord_eq_ok, hsame.bytes name (isRecordName_of_mem hname)]

theorem mem_records_of_rewritten {content? : Option ByteArray} {changed : String}
    (h : Rewritten p changed content? d other) (hchanged : isRecordName changed = true) :
    (name, v) ∈ records V other p ↔
      if name = changed then ∃ content, content? = some content ∧ valueOfBytes content = .ok v
      else (name, v) ∈ records V d p := by
  rw [mem_records_iff_mem, mem_records_iff_mem, readRecord_eq_ok, readRecord_eq_ok, h.names]
  by_cases hname : name = changed
  · rw [if_pos hname, if_pos hname, h.bytes name (hname ▸ hchanged), if_pos hname]
    constructor
    · rintro ⟨-, hheld⟩
      exact hheld
    · rintro ⟨content, rfl, hv⟩
      exact ⟨rfl, content, rfl, hv⟩
  · rw [if_neg hname, if_neg hname]
    constructor
    · rintro ⟨hmem, hheld⟩
      rw [h.bytes name (isRecordName_of_mem hmem), if_neg hname] at hheld
      exact ⟨hmem, hheld⟩
    · rintro ⟨hmem, hheld⟩
      rw [h.bytes name (isRecordName_of_mem hmem), if_neg hname]
      exact ⟨hmem, hheld⟩

theorem isHandled_of_rewritten {content? : Option ByteArray} {changed : String}
    (h : Rewritten p changed content? d other)
    (hcontent : ∀ content, content? = some content → ∃ v : V, valueOfBytes content = .ok v)
    (hhandled : ∀ n ∈ recordNames d p, IsHandled V d p n) :
    ∀ n ∈ recordNames other p, IsHandled V other p n := by
  intro n hn
  have hbytes := h.bytes n (isRecordName_of_mem hn)
  rw [h.names] at hn
  by_cases hname : n = changed
  · rw [if_pos hname] at hn hbytes
    obtain ⟨content, hsome⟩ := Option.isSome_iff_exists.mp hn
    obtain ⟨v, hv⟩ := hcontent content hsome
    intro fault hfault
    rw [readRecord_eq_ok.mpr ⟨content, hbytes.trans hsome, hv⟩] at hfault
    cases hfault
  · rw [if_neg hname] at hn hbytes
    exact isHandled_congr hbytes (hhandled n hn)

/-! ## Changes to the disk -/

theorem mem_recordNames (hp : d.locate p = .ok l) :
    name ∈ recordNames d p ↔
      isRecordName name = true ∧ d.files.node? (l ++ [name]) ≠ none := by
  rw [recordNames, List.mem_mergeSort, List.mem_filter, Disk.names, hp,
    FileSystem.mem_names_iff_node?]
  exact and_comm

theorem LiesAt.of_agree (h : LiesAt d p l) (hagree : Disk.Agree isRecordName l d other) :
    LiesAt other p l :=
  ⟨hagree.locate h.located, (hagree.files.directories l).trans h.directory⟩

theorem LiesAt.sameFiles (h : LiesAt d p l) (hagree : Disk.Agree isRecordName l d other) :
    SameFiles p d other := by
  constructor
  · rw [recordNames, recordNames, Disk.names, Disk.names, h.located, hagree.locate h.located]
    dsimp only
    rw [hagree.files.names]
  · intro name hname
    ext content
    rw [bytesAt?_eq_some, bytesAt?_eq_some,
      Disk.read_child_eq_ok h.located (ne_up_of_isRecordName hname),
      Disk.read_child_eq_ok (hagree.locate h.located) (ne_up_of_isRecordName hname),
      hagree.locate_iff, hagree.files.nodes name hname]

theorem LiesAt.rewritten {content? : Option ByteArray} {changed : String} (h : LiesAt d p l)
    (hstart : other.workingDirectory = d.workingDirectory)
    (hsame : FileSystem.SameDirectories d.files other.files)
    (hnodes : ∀ n, isRecordName n = true → other.files.node? (l ++ [n]) =
      if n = changed then content?.map .file else d.files.node? (l ++ [n]))
    (hchanged : isRecordName changed = true)
    (hchild : content? ≠ none → d.locate (p.child changed) = .ok (l ++ [changed])) :
    LiesAt other p l ∧ Rewritten p changed content? d other := by
  have hways : ∀ {q m}, other.locate q = .ok m ↔ d.locate q = .ok m :=
    ⟨Disk.locate_of_sameDirectories (fun m => (hsame m).symm) hstart.symm,
      Disk.locate_of_sameDirectories hsame hstart⟩
  have hother : LiesAt other p l := ⟨hways.mpr h.located, (hsame l).trans h.directory⟩
  refine ⟨hother, ?_, ?_⟩
  · intro n
    rw [mem_recordNames hother.located, mem_recordNames h.located]
    by_cases hn : n = changed
    · rw [if_pos hn, hnodes n (hn ▸ hchanged), if_pos hn, hn, hchanged]
      cases content? <;> simp
    · rw [if_neg hn]
      constructor
      · rintro ⟨hname, hnode⟩
        rw [hnodes n hname, if_neg hn] at hnode
        exact ⟨hname, hnode⟩
      · rintro ⟨hname, hnode⟩
        refine ⟨hname, ?_⟩
        rwa [hnodes n hname, if_neg hn]
  · intro n hname
    ext content
    rw [bytesAt?_eq_some, Disk.read_child_eq_ok hother.located (ne_up_of_isRecordName hname), hways,
      hnodes n hname]
    by_cases hn : n = changed
    · subst hn
      rw [if_pos rfl, if_pos rfl]
      constructor
      · rintro ⟨-, hnode⟩
        cases content? with
        | none => cases hnode
        | some held => rw [Node.file.inj (Option.some.inj hnode)]
      · rintro rfl
        exact ⟨hchild (by simp), rfl⟩
    · rw [if_neg hn, if_neg hn, bytesAt?_eq_some,
        Disk.read_child_eq_ok h.located (ne_up_of_isRecordName hname)]

theorem Rewritten.trans_same {content? : Option ByteArray} {changed : String} {mid : Disk}
    (h : Rewritten p changed content? d mid) (hsame : SameFiles p mid other) :
    Rewritten p changed content? d other := by
  constructor
  · intro n
    rw [hsame.names, h.names]
  · intro n hn
    rw [hsame.bytes n hn, h.bytes n hn]

theorem LiesAt.put (h : LiesAt d p l) (content : ByteArray) (hname : isRecordName name = true)
    (hchild : d.locate (p.child name) = .ok (l ++ [name]))
    (hfile : d.files.isDirectory (l ++ [name]) = false) :
    LiesAt { d with files := d.files.put (l ++ [name]) (.file content) } p l ∧
      Rewritten p name (some content) d
        { d with files := d.files.put (l ++ [name]) (.file content) } := by
  refine h.rewritten rfl (FileSystem.sameDirectories_put_file hfile) ?_ hname fun _ => hchild
  intro n _
  rw [FileSystem.node?_put (by simp)]
  simp

theorem LiesAt.drop (h : LiesAt d p l) (hname : isRecordName name = true)
    (hfile : d.files.isDirectory (l ++ [name]) = false) :
    LiesAt { d with files := d.files.drop (l ++ [name]) } p l ∧
      Rewritten p name none d { d with files := d.files.drop (l ++ [name]) } := by
  refine h.rewritten rfl (FileSystem.sameDirectories_drop hfile) ?_ hname fun hnone => ?_
  · intro n _
    rw [FileSystem.node?_drop (by simp)]
    simp
  · exact absurd rfl hnone

/-- A file is stored under its name, or the record files are as they were. -/
theorem LiesAt.store (h : LiesAt d p l) (keyText : String) (content : ByteArray) :
    ∃ after, LiesAt after p l ∧
      ((d.store p (fileName keyText) temporaryName content = (.ok (), after) ∧
          Rewritten p (fileName keyText) (some content) d after) ∨
        ∃ fault, d.store p (fileName keyText) temporaryName content = (.error fault, after) ∧
          SameFiles p d after) := by
  have hshown := isRecordName_fileName keyText
  rcases Disk.store_spec content h.located (fileName_ne_up keyText)
      fun n => ⟨isRecordName_temporaryName n, temporaryName_ne_up n⟩ with
    ⟨after, hstore, hchild, hfile, hagree⟩ | ⟨fault, after, hstore, hagree⟩
  · obtain ⟨hplace, hput⟩ := h.put content hshown hchild hfile
    exact ⟨after, hplace.of_agree hagree,
      .inl ⟨hstore, hput.trans_same (hplace.sameFiles hagree)⟩⟩
  · exact ⟨after, h.of_agree hagree, .inr ⟨fault, hstore, h.sameFiles hagree⟩⟩

theorem LiesAt.discard (h : LiesAt d p l) (keyText : String) :
    (∃ after, d.discard (p.child (fileName keyText)) = (.ok (), after) ∧ LiesAt after p l ∧
      Rewritten p (fileName keyText) none d after) ∨
    ∃ fault, d.discard (p.child (fileName keyText)) = (.error fault, d) := by
  rcases Disk.discard_cases h.located h.directory (fileName_ne_up keyText) with
    ⟨hdiscard, hfile⟩ | ⟨fault, hdiscard⟩
  · exact .inl ⟨_, hdiscard, h.drop (isRecordName_fileName keyText) hfile⟩
  · exact .inr ⟨fault, hdiscard⟩

end LinkShelf.RecordDirectory
