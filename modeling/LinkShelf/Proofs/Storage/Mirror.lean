import LinkShelf.Proofs.Operation
import LinkShelf.Proofs.Storage.Disk
import LinkShelf.Proofs.Storage.Entries
import LinkShelf.Proofs.Storage.RecordName

/-!
Record directories and the disk: the record files are those of the entries. Main statements: a
change of an entry, whether it succeeds or fails, leaves the directory a mirror of the entries
(`add_spec`, `remove_spec`, `removeSame_spec`), and reading a mirror again gives the same entries
(`load_spec`).
-/

namespace LinkShelf.RecordDirectory

open Operation

variable {V K : Type} [Record V K]

/-- The name of the file of a key. -/
def nameOf (V : Type) {K : Type} [Record V K] (key : K) : String := fileName (Record.keyText V key)

/-- Whether the values of a kind are read back from their files, and no two of their keys share a
file. -/
structure Faithful (P : V → Prop) : Prop where
  readBack : ∀ {v : V} {text : String}, P v → recordText v = .ok text →
    valueOfBytes text.toUTF8 = .ok v
  apart : ∀ {v w : V}, P v → P w → nameOf V (Keyed.key v) = nameOf V (Keyed.key w) →
    Keyed.key v = Keyed.key w

/-- Whether a value lies in the file of its key. -/
structure Recorded (P : V → Prop) (d : Disk) (p : Path) (l : Location) (e : K × V) : Prop where
  kind : P e.2
  key : Keyed.key e.2 = e.1
  located : d.locate (p.child (nameOf V e.1)) = .ok (l ++ [nameOf V e.1])
  content : ∃ text, recordText e.2 = .ok text ∧
    d.files.node? (l ++ [nameOf V e.1]) = some (.file text.toUTF8)

/-- Whether the record files of a directory are those of its entries. -/
structure Mirrors (P : V → Prop) (l : Location) (r : RecordDirectory V K) : Prop where
  located : r.disk.locate r.path = .ok l
  directory : r.disk.files.isDirectory l = true
  names : ((r.disk.files.names l).filter isRecordName).Perm
    ((Entries.keys r.entries).map (nameOf V))
  recorded : ∀ e ∈ r.entries, Recorded P r.disk r.path l e
  distinct : (Entries.keys r.entries).Nodup

variable {P : V → Prop} {l : Location} {r : RecordDirectory V K} {d : Disk} {v : V} {key : K}

theorem isRecordName_nameOf (key : K) : isRecordName (nameOf V key) = true :=
  isRecordName_fileName _

theorem nameOf_ne_up (key : K) : nameOf V key ≠ ".." := fileName_ne_up _

namespace Recorded

variable {e : K × V} {p : Path}

theorem of_agree (h : Recorded P d p l e) {other : Disk}
    (hagree : Disk.Agree isRecordName l d other) : Recorded P other p l e := by
  obtain ⟨text, htext, hnode⟩ := h.content
  refine ⟨h.kind, h.key, hagree.locate h.located, text, htext, ?_⟩
  rw [hagree.files.nodes _ (isRecordName_nameOf e.1), hnode]

end Recorded

namespace Mirrors

/-- What is not shown does not matter. -/
theorem of_agree (h : Mirrors P l r) (hagree : Disk.Agree isRecordName l r.disk d) :
    Mirrors P l { r with disk := d } where
  located := hagree.locate h.located
  directory := (hagree.files.directories l).trans h.directory
  names := by
    rw [hagree.files.names]
    exact h.names
  recorded := fun e he => (h.recorded e he).of_agree hagree
  distinct := h.distinct

/-- Neither does the order of the entries. -/
theorem of_perm (h : Mirrors P l r) {entries : Entries K V} (hperm : entries.Perm r.entries)
    (keyName : String) : Mirrors P l ⟨r.disk, r.path, keyName, entries⟩ where
  located := h.located
  directory := h.directory
  names := h.names.trans ((hperm.map _).map _).symm
  recorded := fun e he => h.recorded e (hperm.mem_iff.mp he)
  distinct := (hperm.map _).nodup_iff.mpr h.distinct

section

variable (h : Mirrors P l r) (hP : Faithful P)

include h hP

/-- A value of the kind has no file in common with the entries of other keys. -/
theorem nameOf_eq_iff (hv : P v) {e : K × V} (he : e ∈ r.entries) :
    nameOf V e.1 = nameOf V (Keyed.key v) ↔ e.1 = Keyed.key v := by
  have hkey := (h.recorded e he).key
  constructor
  · intro hname
    rw [← hkey] at hname ⊢
    exact hP.apart (h.recorded e he).kind hv hname
  · intro hsame
    rw [hsame]

theorem mem_names (hv : P v) :
    nameOf V (Keyed.key v) ∈ r.disk.files.names l ↔ Keyed.key v ∈ Entries.keys r.entries := by
  have hshown := isRecordName_nameOf (V := V) (Keyed.key v)
  have hmem := h.names.mem_iff (a := nameOf V (Keyed.key v))
  rw [List.mem_filter, hshown] at hmem
  simp only [and_true] at hmem
  rw [hmem, Entries.keys, List.map_map, List.mem_map, List.mem_map]
  constructor
  · rintro ⟨e, he, hname⟩
    exact ⟨e, he, (h.nameOf_eq_iff hP hv he).mp hname⟩
  · rintro ⟨e, he, hkey⟩
    exact ⟨e, he, (h.nameOf_eq_iff hP hv he).mpr hkey⟩

theorem nodup_names : ((Entries.keys r.entries).map (nameOf V)).Nodup := by
  refine List.Nodup.map_on ?_ h.distinct
  intro k hk m hm hname
  obtain ⟨e, he, rfl⟩ := List.mem_map.mp hk
  obtain ⟨other, hother, rfl⟩ := List.mem_map.mp hm
  obtain ⟨hkind, hkey, -⟩ := h.recorded other hother
  rw [← hkey] at hname ⊢
  exact (h.nameOf_eq_iff hP hkind he).mp hname

/-- A file put under the name of a key goes with a value put under the key. -/
theorem put [DecidableEq K] (hv : P v) {text : String} (htext : recordText v = .ok text)
    (hlocated : r.disk.locate (r.path.child (nameOf V (Keyed.key v))) =
      .ok (l ++ [nameOf V (Keyed.key v)]))
    (hfile : r.disk.files.isDirectory (l ++ [nameOf V (Keyed.key v)]) = false) :
    Mirrors P l { r with
      disk := { r.disk with
        files := r.disk.files.put (l ++ [nameOf V (Keyed.key v)]) (.file text.toUTF8) }
      entries := r.entries.put (Keyed.key v) v } := by
  have hsame : FileSystem.SameDirectories r.disk.files
      (r.disk.files.put (l ++ [nameOf V (Keyed.key v)]) (.file text.toUTF8)) :=
    FileSystem.sameDirectories_put_file hfile
  have hmem := h.mem_names hP hv
  have hshown := isRecordName_nameOf (V := V) (Keyed.key v)
  refine ⟨Disk.locate_of_sameDirectories hsame rfl h.located, (hsame l).trans h.directory, ?_, ?_,
    ?_⟩
  · by_cases hkey : Keyed.key v ∈ Entries.keys r.entries
    · simp only [Entries.keys_put_of_mem hkey, FileSystem.names_put_of_mem (hmem.mpr hkey)]
      exact h.names
    · simp only [Entries.put_of_not_mem hkey, FileSystem.names_put_of_not_mem (mt hmem.mp hkey),
        Entries.keys, List.map_append, List.filter_append]
      refine h.names.append ?_
      simp [hshown]
  · intro e he
    rcases Entries.mem_put h.distinct he with rfl | ⟨hold, hne⟩
    · refine ⟨hv, rfl, Disk.locate_of_sameDirectories hsame rfl hlocated, text, htext, ?_⟩
      simp [FileSystem.node?_put]
    · obtain ⟨other, hother, hnode⟩ := (h.recorded e hold).content
      refine ⟨(h.recorded e hold).kind, (h.recorded e hold).key,
        Disk.locate_of_sameDirectories hsame rfl (h.recorded e hold).located, other, hother, ?_⟩
      have hname := mt (h.nameOf_eq_iff hP hv hold).mp hne
      rw [FileSystem.node?_put (by simp), if_neg (by simpa using hname), hnode]
  · exact Entries.nodup_keys_put h.distinct

/-- A file dropped goes with the entry dropped. -/
theorem drop [DecidableEq K] {e : K × V} (he : e ∈ r.entries) :
    Mirrors P l { r with
      disk := { r.disk with files := r.disk.files.drop (l ++ [nameOf V e.1]) }
      entries := r.entries.drop e.1 } := by
  obtain ⟨hkind, hkey, -, text, -, hnode⟩ := h.recorded e he
  have hsame : FileSystem.SameDirectories r.disk.files
      (r.disk.files.drop (l ++ [nameOf V e.1])) :=
    FileSystem.sameDirectories_drop (by simp [FileSystem.isDirectory, hnode])
  have hname : ∀ other ∈ r.entries, nameOf V other.1 = nameOf V e.1 ↔ other.1 = e.1 := by
    intro other hother
    rw [← hkey]
    exact h.nameOf_eq_iff hP hkind hother
  refine ⟨Disk.locate_of_sameDirectories hsame rfl h.located, (hsame l).trans h.directory, ?_, ?_,
    ?_⟩
  · have hdropped : (Entries.keys (r.entries.drop e.1)).map (nameOf V) =
        ((Entries.keys r.entries).map (nameOf V)).filter (· ≠ nameOf V e.1) := by
      simp only [Entries.keys, Entries.drop, List.map_map, List.filter_map]
      congr 1
      apply List.filter_congr
      intro other hother
      simp [hname other hother]
    simp only [hdropped, FileSystem.names_drop]
    rw [List.filter_filter]
    have hboth : ((r.disk.files.names l).filter
          fun name => isRecordName name && (name ≠ nameOf V e.1)) =
        ((r.disk.files.names l).filter isRecordName).filter (· ≠ nameOf V e.1) := by
      rw [List.filter_filter]
      apply List.filter_congr
      intro name _
      exact Bool.and_comm _ _
    rw [hboth]
    exact h.names.filter _
  · intro other hother
    obtain ⟨hold, hne⟩ := Entries.mem_drop.mp hother
    obtain ⟨content, hcontent, hothernode⟩ := (h.recorded other hold).content
    refine ⟨(h.recorded other hold).kind, (h.recorded other hold).key,
      Disk.locate_of_sameDirectories hsame rfl (h.recorded other hold).located, content, hcontent,
      ?_⟩
    rw [FileSystem.node?_drop (by simp), if_neg, hothernode]
    simpa using mt (hname other hold).mp hne
  · exact Entries.nodup_keys_drop h.distinct

end

end Mirrors

/-! ## Changes -/

/-- How a change of the entries of a mirror ends: it is made in memory and on the disk, or it fails
and is made in neither. -/
def Changes (P : V → Prop) (l : Location) (r : RecordDirectory V K) (entries : Entries K V)
    (a : α) :
    Except Failure α → RecordDirectory V K → Prop :=
  fun result after => Mirrors P l after ∧ after.path = r.path ∧
    ((result = .ok a ∧ after.entries = entries) ∨
      ∃ fault, result = .error fault ∧ after.entries = r.entries)

omit [Record V K] in
theorem ends_onDisk_bind {f : Disk → Except FileFault α × Disk}
    {next : α → Operation (RecordDirectory V K) β}
    {post : Except Failure β → RecordDirectory V K → Prop}
    (hnext : ∀ a d, f r.disk = (.ok a, d) → (next a).Ends { r with disk := d } post)
    (hfail : ∀ fault d, f r.disk = (.error fault, d) →
      post (.error (.file fault)) { r with disk := d }) :
    (onDisk f >>= next).Ends r post := by
  have hdisk : (onDisk f).Ends r fun result after =>
      (∃ a d, f r.disk = (.ok a, d) ∧ result = .ok a ∧ after = { r with disk := d }) ∨
      ∃ fault d, f r.disk = (.error fault, d) ∧ result = .error (.file fault) ∧
        after = { r with disk := d } := by
    exact ends_within (Disk.ends_attempt (fun a d hrun => .inl ⟨a, d, hrun, rfl, rfl⟩)
      fun fault d hrun => .inr ⟨fault, d, hrun, rfl, rfl⟩)
  refine ends_bind hdisk ?_ ?_
  · rintro a after (⟨b, d, hrun, hresult, rfl⟩ | ⟨fault, d, hrun, hresult, rfl⟩)
    · cases hresult
      exact hnext _ d hrun
    · cases hresult
  · rintro fault after (⟨b, d, hrun, hresult, rfl⟩ | ⟨fault, d, hrun, hresult, rfl⟩)
    · cases hresult
    · cases hresult
      exact hfail _ d hrun

variable [DecidableEq K]

theorem add_spec (hP : Faithful P) (h : Mirrors P l r) (hv : P v) :
    (add v).Ends r (Changes P l r (r.entries.put (Keyed.key v) v) ()) := by
  refine ends_current_bind.mpr (ends_settled_bind ?_ ?_)
  · intro text htext
    have hstore := Disk.store_spec text.toUTF8 h.located
      (fileName_ne_up (Record.keyText V (Keyed.key v)))
      fun n => ⟨isRecordName_temporaryName n, temporaryName_ne_up n⟩
    refine ends_onDisk_bind ?_ ?_
    · intro u d hrun
      rcases hstore with ⟨after, hafter, hlocated, hfile, hagree⟩ | ⟨fault, after, hafter, -⟩
      · obtain rfl : after = d := congrArg Prod.snd (hafter.symm.trans hrun)
        refine ends_change_bind.mpr (ends_report.mpr ⟨?_, rfl, .inl ⟨rfl, rfl⟩⟩)
        exact (h.put hP hv htext hlocated hfile).of_agree hagree
      · cases hafter.symm.trans hrun
    · intro fault d hrun
      rcases hstore with ⟨after, hafter, -⟩ | ⟨fault, after, hafter, hagree⟩
      · cases hafter.symm.trans hrun
      · obtain rfl : after = d := congrArg Prod.snd (hafter.symm.trans hrun)
        exact ⟨h.of_agree hagree, rfl, .inr ⟨_, rfl, rfl⟩⟩
  · intro fault _
    exact ⟨h, rfl, .inr ⟨fault, rfl, rfl⟩⟩

theorem remove_spec (hP : Faithful P) (h : Mirrors P l r) (key : K) :
    (remove key).Ends r (Changes P l r (r.entries.drop key) (r.entries.value? key)) := by
  refine ends_current_bind.mpr ?_
  cases hv : r.entries.value? key with
  | none =>
      exact ends_pure.mpr ⟨h, rfl, .inl ⟨rfl, (Entries.drop_of_value?_eq_none hv).symm⟩⟩
  | some v =>
      have hdropped := h.drop hP (Entries.mem_of_value?_eq_some hv)
      have hdiscard := Disk.discard_cases h.located h.directory (nameOf_ne_up (V := V) key)
      refine ends_onDisk_bind ?_ ?_
      · intro u d hrun
        rcases hdiscard with ⟨hafter, -⟩ | ⟨fault, hafter⟩
        · obtain rfl := congrArg Prod.snd (hafter.symm.trans hrun)
          exact ends_report_bind (ends_change_bind.mpr
            (ends_pure.mpr ⟨hdropped, rfl, .inl ⟨rfl, rfl⟩⟩))
        · cases hafter.symm.trans hrun
      · intro fault d hrun
        rcases hdiscard with ⟨hafter, -⟩ | ⟨fault, hafter⟩
        · cases hafter.symm.trans hrun
        · obtain rfl := congrArg Prod.snd (hafter.symm.trans hrun)
          exact ⟨h, rfl, .inr ⟨_, rfl, rfl⟩⟩

theorem removeSame_spec (hP : Faithful P) (h : Mirrors P l r) (v : V) :
    (removeSame v).Ends r (Changes P l r ((keyOfSame? r.entries v).elim r.entries r.entries.drop)
      ((keyOfSame? r.entries v).bind r.entries.value?)) := by
  refine ends_current_bind.mpr ?_
  cases keyOfSame? r.entries v with
  | some key => exact remove_spec hP h key
  | none => exact ends_pure.mpr ⟨h, rfl, .inl ⟨rfl, rfl⟩⟩

/-! ## Reading -/

omit [DecidableEq K] in
theorem readRecord_of_recorded (hP : Faithful P) {p : Path} {e : K × V} (he : Recorded P d p l e) :
    readRecord d (p.child (nameOf V e.1)) = .ok e.2 := by
  obtain ⟨text, htext, hnode⟩ := he.content
  have hread : d.read (p.child (nameOf V e.1)) = .ok text.toUTF8 := by
    simp only [Disk.read, he.located, ok_bind, FileSystem.read, hnode]
  rw [readRecord, hread]
  exact hP.readBack he.kind htext

/-- The files of some entries are read as those entries, in their order. -/
theorem readAll_spec (hP : Faithful P) {p : Path} {found entries : Entries K V}
    (hfound : ∀ e ∈ found, Recorded P d p l e)
    (hdistinct : (Entries.keys (entries ++ found)).Nodup) :
    (readAll p ((Entries.keys found).map (nameOf V)) entries).Ends d fun result after =>
      result = .ok (entries ++ found) ∧ after = d := by
  induction found generalizing entries with
  | nil => exact ends_pure.mpr ⟨by simp, rfl⟩
  | cons e rest ih =>
      have he := hfound e (by simp)
      have hread := readRecord_of_recorded hP he
      have hapart : (Entries.keys entries ++ Entries.keys (e :: rest)).Nodup := by
        simpa [Entries.keys] using hdistinct
      have hnew : Keyed.key e.2 ∉ Entries.keys entries := by
        rw [he.key]
        exact fun hmem => (List.disjoint_of_nodup_append hapart) hmem (by simp [Entries.keys])
      have hput : entries.put (Keyed.key e.2) e.2 = entries ++ [e] := by
        rw [Entries.put_of_not_mem hnew, he.key]
      have hname : nameOf V e.1 = fileName (Record.keyText V (Keyed.key e.2)) := by
        rw [he.key]
        rfl
      have hrest := @ih (entries ++ [e]) (fun other hother => hfound other (by simp [hother]))
        (by simpa using hdistinct)
      rw [List.append_assoc, List.singleton_append] at hrest
      refine ends_current_bind.mpr ?_
      simp only [hread]
      rw [if_neg (not_not_intro hname), hput]
      exact hrest

omit [Record V K] [DecidableEq K] in
/-- A list with the items of an image is the image of a list. -/
theorem exists_perm_map {f : K × V → String} {items : List (K × V)} {names : List String}
    (hnames : names.Perm (items.map f)) :
    ∃ found : List (K × V), found.Perm items ∧ names = found.map f := by
  have hitems : List.Forall₂ (fun name item => name = f item) (items.map f) items := by
    simp
  obtain ⟨found, hfound, hperm⟩ := List.perm_comp_forall₂ hnames hitems
  refine ⟨found, hperm, ?_⟩
  rwa [← List.forall₂_map_right_iff, List.forall₂_eq_eq_eq] at hfound

/-- Reading a mirror gives a mirror with the same entries, and leaves the disk as it was. -/
theorem load_spec (hP : Faithful P) (h : Mirrors P l r) (keyName : String) :
    (load r.path keyName : Operation Disk (RecordDirectory V K)).Ends r.disk fun result after =>
      after = r.disk ∧ ∃ entries, entries.Perm r.entries ∧
        result = .ok ⟨r.disk, r.path, keyName, entries⟩ := by
  have hnames : (recordNames r.disk r.path).Perm ((Entries.keys r.entries).map (nameOf V)) := by
    have hsorted : (recordNames r.disk r.path).Perm
        ((r.disk.files.names l).filter isRecordName) := by
      simp only [recordNames, Disk.names, h.located]
      exact List.mergeSort_perm _ _
    exact hsorted.trans h.names
  rw [Entries.keys, List.map_map] at hnames
  obtain ⟨found, hfound, hlist⟩ := exists_perm_map hnames
  have hdistinct : (Entries.keys ([] ++ found)).Nodup := (hfound.map _).nodup_iff.mpr h.distinct
  have hmade := Disk.makeDirectories_of_isDirectory h.located h.directory
  have hread : (readAll r.path (recordNames r.disk r.path) []).Ends r.disk fun result after =>
      result = .ok ([] ++ found) ∧ after = r.disk := by
    rw [hlist, ← List.map_map]
    exact readAll_spec hP (fun e he => h.recorded e (hfound.mem_iff.mp he)) hdistinct
  refine Disk.ends_attempt_bind ?_ fun _ _ hfault => by cases hmade.symm.trans hfault
  intro u after hafter
  cases hmade.symm.trans hafter
  refine ends_current_bind.mpr (ends_bind hread ?_ ?_)
  · rintro entries after ⟨hentries, rfl⟩
    cases hentries
    exact ends_report_bind (ends_current_bind.mpr (ends_pure.mpr ⟨rfl, found, hfound, rfl⟩))
  · rintro fault after ⟨hentries, -⟩
    cases hentries

end LinkShelf.RecordDirectory
