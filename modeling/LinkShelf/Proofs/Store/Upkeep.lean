import LinkShelf.Proofs.Storage.Contents
import LinkShelf.Proofs.Storage.Frame
import LinkShelf.Proofs.Store.Steps

/-!
What a store keeps true of its bookmarks and of the record files of one directory, if only bookmarks
of some kind are ever written. Main statements: every change keeps it, whether it fails or not
(`add_abides`, `replace_abides`, `visit_abides`, `remove_abides`), and so does opening the directory
(`load_abides`). Stores of other directories leave the files alone.
-/

namespace LinkShelf

open Operation

theorem Entries.mem_of_mem_put {K V : Type} [DecidableEq K] {entries : Entries K V} {key : K}
    {v : V} {e : K × V} (he : e ∈ entries.put key v) : e = (key, v) ∨ e ∈ entries := by
  induction entries with
  | nil => exact .inl (by simpa [put] using he)
  | cons first rest ih =>
      obtain ⟨k, w⟩ := first
      by_cases hk : k = key
      · rw [put, if_pos hk, List.mem_cons] at he
        exact he.imp id (List.mem_cons_of_mem _)
      · rw [put, if_neg hk, List.mem_cons] at he
        obtain rfl | he := he
        · exact .inr List.mem_cons_self
        · exact (ih he).imp id (List.mem_cons_of_mem _)

namespace RecordDirectory

variable {Q : String → ByteArray → Prop} {l k : Location} {d after : Disk} {p : Path}
  {name : String} {content : ByteArray}

/-! ## Files -/

/-- Whether the record files at a location are all as described. -/
def HoldsOnly (Q : String → ByteArray → Prop) (l : Location) (d : Disk) : Prop :=
  ∀ name content, isRecordName name = true → d.files.file? (l ++ [name]) = some content →
    Q name content

theorem HoldsOnly.of_files (h : HoldsOnly Q l d)
    (hfiles : ∀ name, isRecordName name = true →
      after.files.file? (l ++ [name]) = d.files.file? (l ++ [name])) : HoldsOnly Q l after :=
  fun name content hname hfile => h name content hname ((hfiles name hname).symm.trans hfile)

theorem HoldsOnly.of_spares (h : HoldsOnly Q l d) (hspares : Disk.Spares isRecordName d after) :
    HoldsOnly Q l after :=
  h.of_files fun name hname => hspares.files l name hname

theorem HoldsOnly.of_agree (h : HoldsOnly Q l d) (hagree : Disk.Agree isRecordName l d after) :
    HoldsOnly Q l after :=
  h.of_files fun name hname => by
    rw [FileSystem.file?, FileSystem.file?, hagree.files.nodes name hname]

theorem HoldsOnly.of_inside (h : HoldsOnly Q l d) (hinside : Disk.Inside k d after) (hne : k ≠ l) :
    HoldsOnly Q l after := by
  refine h.of_files fun name _ => ?_
  have hother : ∀ other, l ++ [name] ≠ k ++ [other] := by
    intro other hsame
    exact hne (List.append_inj_left' hsame rfl).symm
  rw [FileSystem.file?, FileSystem.file?, hinside.nodes _ hother]

theorem HoldsOnly.put (h : HoldsOnly Q l d) (hcontent : Q name content) :
    HoldsOnly Q l { d with files := d.files.put (l ++ [name]) (.file content) } := by
  intro other held hother hheld
  rw [FileSystem.file?] at hheld
  by_cases hname : other = name
  · rw [FileSystem.node?_put (by simp), if_pos (by rw [hname])] at hheld
    cases hheld
    rw [hname]
    exact hcontent
  · rw [FileSystem.node?_put (by simp), if_neg (by simpa using hname)] at hheld
    exact h other held hother hheld

theorem HoldsOnly.drop (h : HoldsOnly Q l d) (name : String) :
    HoldsOnly Q l { d with files := d.files.drop (l ++ [name]) } := by
  intro other held hother hheld
  rw [FileSystem.file?] at hheld
  by_cases hname : other = name
  · rw [FileSystem.node?_drop (by simp), if_pos (by rw [hname])] at hheld
    cases hheld
  · rw [FileSystem.node?_drop (by simp), if_neg (by simpa using hname)] at hheld
    exact h other held hother hheld

theorem LiesAt.of_inside {m : Location} (h : LiesAt d p k) (hinside : Disk.Inside m d after) :
    LiesAt after p k :=
  ⟨hinside.locate h.located, (hinside.directories k).trans h.directory⟩

theorem LiesAt.of_spares (h : LiesAt d p k) (hspares : Disk.Spares isRecordName d after) :
    LiesAt after p k :=
  ⟨hspares.locate h.located, hspares.directories k h.directory⟩

/-- What is stored in a directory is as described, and what is stored in others does not matter. -/
theorem HoldsOnly.store (h : HoldsOnly Q l d) (hlies : LiesAt d p k) (keyText : String)
    (hcontent : k = l → Q (fileName keyText) content) :
    HoldsOnly Q l (d.store p (fileName keyText) temporaryName content).2 := by
  by_cases hkl : k = l
  · subst hkl
    obtain ⟨after, hstore, -, -, hagree⟩ | ⟨fault, after, hstore, hagree⟩ :=
      Disk.store_spec content hlies.located (fileName_ne_up keyText)
        fun n => ⟨isRecordName_temporaryName n, temporaryName_ne_up n⟩
    · rw [hstore]
      exact (h.put (hcontent rfl)).of_agree hagree
    · rw [hstore]
      exact h.of_agree hagree
  · exact h.of_inside
      (Disk.inside_store hlies.located (fileName_ne_up keyText) temporaryName_ne_up content) hkl

theorem HoldsOnly.discard (h : HoldsOnly Q l d) (hlies : LiesAt d p k) (keyText : String) :
    HoldsOnly Q l (d.discard (p.child (fileName keyText))).2 := by
  by_cases hkl : k = l
  · subst hkl
    obtain ⟨hdiscard, -⟩ | ⟨fault, hdiscard⟩ :=
      Disk.discard_cases hlies.located hlies.directory (fileName_ne_up keyText)
    · rw [hdiscard]
      exact h.drop _
    · rw [hdiscard]
      exact h
  · exact h.of_inside (Disk.inside_discard hlies.located (fileName_ne_up keyText)) hkl

/-! ## Open directories -/

variable {V K : Type} [Record V K] [DecidableEq K] {E W : V → Prop} {r : RecordDirectory V K}

/-- Whether the directory of a map is at a location, the record files at another one are as
described, and the values are, where the two are the same. -/
structure Abides (Q : String → ByteArray → Prop) (E : V → Prop) (l k : Location)
    (r : RecordDirectory V K) : Prop where
  lies : LiesAt r.disk r.path k
  files : HoldsOnly Q l r.disk
  entries : k = l → ∀ e ∈ r.entries, E e.2

/-- Whether values of a kind are written in files as described, and values of another kind are read
from such files. -/
structure Discipline (Q : String → ByteArray → Prop) (E W : V → Prop) : Prop where
  read : ∀ {name content v}, Q name content → valueOfBytes content = .ok v → E v
  written : ∀ {v name text}, W v → recordText v = .ok text → Q name text.toUTF8
  kept : ∀ {v}, W v → E v

omit [DecidableEq K] [Record V K] in
theorem Abides.disk {d : Disk} (h : Abides Q E l k r) (hfiles : HoldsOnly Q l d)
    (hinside : Disk.Inside k r.disk d) : Abides Q E l k { r with disk := d } :=
  ⟨h.lies.of_inside hinside, hfiles, h.entries⟩

theorem add_abides (hQ : Discipline Q E W) (h : Abides Q E l k r) {v : V} (hv : k = l → W v) :
    (add v).Ends r fun _ after => Abides Q E l k after := by
  refine ends_current_bind.mpr (ends_settled_bind ?_ fun _ _ => h)
  intro text htext
  have hfiles : HoldsOnly Q l (r.disk.store r.path (fileName (Record.keyText V (Keyed.key v)))
      temporaryName text.toUTF8).2 :=
    h.files.store h.lies _ fun hkl => hQ.written (hv hkl) htext
  have hinside := Disk.inside_store h.lies.located
    (fileName_ne_up (Record.keyText V (Keyed.key v))) temporaryName_ne_up text.toUTF8
  refine ends_onDisk_bind ?_ ?_
  · intro u d hrun
    rw [hrun] at hfiles hinside
    refine ends_change_bind.mpr (ends_report.mpr ⟨h.lies.of_inside hinside, hfiles, ?_⟩)
    intro hkl e he
    obtain rfl | he := Entries.mem_of_mem_put he
    · exact hQ.kept (hv hkl)
    · exact h.entries hkl e he
  · intro fault d hrun
    rw [hrun] at hfiles hinside
    exact h.disk hfiles hinside

theorem remove_abides (h : Abides Q E l k r) (key : K) :
    (remove key).Ends r fun _ after => Abides Q E l k after := by
  refine ends_current_bind.mpr ?_
  split
  · exact ends_pure.mpr h
  · have hfiles := h.files.discard h.lies (Record.keyText V key)
    have hinside := Disk.inside_discard h.lies.located (fileName_ne_up (Record.keyText V key))
    refine ends_onDisk_bind ?_ ?_
    · intro u d hrun
      rw [hrun] at hfiles hinside
      refine ends_report_bind (ends_change_bind.mpr
        (ends_pure.mpr ⟨h.lies.of_inside hinside, hfiles, ?_⟩))
      exact fun hkl e he => h.entries hkl e (Entries.mem_drop.mp he).1
    · intro fault d hrun
      rw [hrun] at hfiles hinside
      exact h.disk hfiles hinside

/-- The values that are read from a directory are those that its files hold. -/
theorem load_abides (hQ : Discipline Q E W) (h : HoldsOnly Q l d) (p : Path) (keyName : String) :
    (load p keyName : Operation Disk (RecordDirectory V K)).Ends d fun result after =>
      HoldsOnly Q l after ∧ ∀ r, result = .ok r → r.disk = after ∧ ∃ k, Abides Q E l k r := by
  have hmade : Disk.Spares isRecordName d (d.makeDirectories p).2 :=
    Disk.spares_makeDirectories p d
  refine (load_ends_of_made d p keyName).mono ?_
  rintro result after (⟨made, hmake, rfl, hopening⟩ | ⟨fault, hmake, rfl⟩)
  · rw [hmake] at hmade
    have hfiles := h.of_spares hmade
    refine ⟨hfiles, ?_⟩
    rintro r rfl
    obtain ⟨k, hlocated, hdirectory⟩ := Disk.exists_of_makeDirectories_eq_ok hmake
    obtain ⟨entries, hok, -, hdistinct, hvalues⟩ | ⟨_, -, -, _, hfault, -⟩ := hopening
    · cases hok
      refine ⟨rfl, k, ⟨hlocated, hdirectory⟩, hfiles, ?_⟩
      rintro rfl ⟨key, v⟩ he
      have hheld := (hvalues key).symm.trans ((Entries.value?_eq_some_iff hdistinct).mpr he)
      obtain ⟨n, hn, -⟩ := (lastHeld?_eq_some (inOrder_records _ _)).mp hheld
      obtain ⟨hname, hread⟩ := mem_records_iff_mem.mp hn
      obtain ⟨content, hbytes, hvalue⟩ := readRecord_eq_ok.mp hread
      have hshown := isRecordName_of_mem hname
      obtain ⟨-, hnode⟩ := (Disk.read_child_eq_ok hlocated (ne_up_of_isRecordName hshown)).mp
        (bytesAt?_eq_some.mp hbytes)
      refine hQ.read (hfiles n content hshown ?_) hvalue
      rw [FileSystem.file?, hnode]
    · cases hfault
  · rw [hmake] at hmade
    exact ⟨h.of_spares hmade, fun _ hr => by cases hr⟩

end RecordDirectory

namespace Store

open RecordDirectory

variable {Q : String → ByteArray → Prop} {E W : Bookmark → Prop} {l k : Location} {d : Disk}
  {r : RecordDirectory Bookmark Locator} {now : Instant} {b : Bookmark}

/-! ## Changes to a store -/

/-- Whether a bookmark is of a kind when its times are filled in, whatever there is in its place. -/
def IsStorable (E W : Bookmark → Prop) (now : Instant) (b : Bookmark) : Prop :=
  ∀ existing stored, (∀ other, existing = some other → E other) →
    changed b (missingTimes b existing now) = .ok stored → W stored

/-- Whether bookmarks are of a kind when a clock has given them the times that they lack. -/
def IsCompletable (E W : Bookmark → Prop) (clock : Nat → Instant) : Prop :=
  ∀ turn {b updated}, E b → completed (clock turn) b = .ok updated →
    IsStorable E W (clock turn) updated

/-- Whether what a store writes of its own accord is of a kind. -/
structure Regime (E W : Bookmark → Prop) (now : Instant) : Prop where
  completed : IsCompletable E W fun _ => now
  visited : ∀ {b visited}, E b → b.visited now = .ok visited → IsStorable E W now visited

theorem of_get (h : Abides Q E l k r) {key : Locator} (hkl : k = l) (hb : get r key = some b) :
    E b :=
  h.entries hkl _ (Entries.mem_of_value?_eq_some hb)

section

variable (hQ : Discipline Q E W) (h : Abides Q E l k r)

include hQ h

theorem add_abides (hb : k = l → IsStorable E W now b) :
    (add now b).Ends r fun _ after => Abides Q E l k after := by
  refine ends_current_bind.mpr (ends_settled_bind ?_ fun _ _ => h)
  intro stored hstored
  refine ends_bind (RecordDirectory.add_abides hQ h ?_) ?_ fun _ _ hafter => hafter
  · exact fun hkl => hb hkl _ stored (fun other hother => of_get h hkl hother) hstored
  · intro u after hafter
    exact ends_report_bind (ends_pure.mpr hafter)

omit hQ in
theorem remove_abides (key : Locator) :
    (remove key).Ends r fun _ after => Abides Q E l k after := by
  refine ends_bind (RecordDirectory.remove_abides h key) ?_ fun _ _ hafter => hafter
  intro removed after hafter
  exact ends_reportRemoved hafter

theorem replace_abides (old : Locator) (hb : k = l → IsStorable E W now b) :
    (replace now old b).Ends r fun _ after => Abides Q E l k after := by
  refine ends_bind (add_abides hQ h hb) ?_ fun _ _ hafter => hafter
  intro stored after hafter
  split
  · refine ends_bind (RecordDirectory.remove_abides hafter old) ?_ fun _ _ hlast => hlast
    intro removed last hlast
    exact ends_report_bind (ends_pure.mpr hlast)
  · exact ends_pure.mpr hafter

theorem visit_abides (hregime : Regime E W now) (key : Locator) :
    (visit now key).Ends r fun _ after => Abides Q E l k after := by
  refine ends_current_bind.mpr ?_
  cases hb : get r key with
  | none => exact ends_pure.mpr h
  | some b =>
      refine ends_settled_bind ?_ fun _ _ => h
      intro visited hvisited
      refine ends_bind (add_abides hQ h ?_) ?_ fun _ _ hafter => hafter
      · exact fun hkl => hregime.visited (of_get h hkl hb) hvisited
      · exact fun stored after hafter => ends_pure.mpr hafter

end

/-! ## Opening a store -/

section

variable {clock : Nat → Instant} (hQ : Discipline Q E W) (hclock : IsCompletable E W clock)

include hQ hclock

theorem completeAll_abides (h : Abides Q E l k r) {bookmarks : List Bookmark}
    (hbookmarks : k = l → ∀ b ∈ bookmarks, E b) (turn : Nat) :
    (completeAll clock bookmarks turn).Ends r fun _ after => Abides Q E l k after := by
  induction bookmarks generalizing r turn with
  | nil => exact ends_pure.mpr h
  | cons b rest ih =>
      have hrest : k = l → ∀ b ∈ rest, E b :=
        fun hkl other hother => hbookmarks hkl other (List.mem_cons_of_mem b hother)
      rw [completeAll]
      split
      · exact ih h hrest turn
      · refine ends_settled_bind ?_ fun _ _ => h
        intro updated hupdated
        have hb : k = l → IsStorable E W (clock turn) updated := fun hkl =>
          hclock turn (hbookmarks hkl b List.mem_cons_self) hupdated
        have hadded : (outcome (add (clock turn) updated)).Ends r fun _ after =>
            Abides Q E l k after := ends_outcome (add_abides hQ h hb)
        refine ends_bind hadded ?_ fun _ _ hafter => hafter
        intro result after hafter
        cases result with
        | ok stored =>
            refine ends_bind (ih hafter hrest (turn + 1)) ?_ fun _ _ hlast => hlast
            exact fun n last hlast => ends_pure.mpr hlast
        | error fault =>
            dsimp only
            split
            · exact ends_report_bind (ih hafter hrest (turn + 1))
            · exact fun _ => hafter

theorem migrate_abides (h : Abides Q E l k r) :
    (migrate clock).Ends r fun _ after => Abides Q E l k after := by
  have hall : k = l → ∀ b ∈ all r, E b := by
    intro hkl b hb
    obtain ⟨e, he, rfl⟩ := List.mem_map.mp hb
    exact h.entries hkl e he
  refine ends_current_bind.mpr (ends_bind (completeAll_abides hQ hclock h hall 0) ?_
    fun _ _ hafter => hafter)
  intro migrated after hafter
  split
  · exact ends_report.mpr hafter
  · exact ends_pure.mpr hafter

theorem load_abides (h : HoldsOnly Q l d) (p : Path) :
    (load clock p).Ends d fun result after =>
      HoldsOnly Q l after ∧ ∀ r, result = .ok r → r.disk = after ∧ ∃ k, Abides Q E l k r := by
  refine ends_bind (RecordDirectory.load_abides hQ h p "url") ?_ ?_
  · rintro directory made ⟨-, hopened⟩
    obtain ⟨-, k, hdirectory⟩ := hopened directory rfl
    have hmigrated := (migrate_abides hQ hclock hdirectory).execute
    rcases hrun : (migrate clock).execute directory with ⟨migrated, last, events⟩
    rw [hrun] at hmigrated
    refine ends_change_bind.mpr (ends_forM_report_bind (ends_settled_bind ?_ ?_))
    · intro _ _
      refine ends_pure.mpr ⟨hmigrated.files, ?_⟩
      rintro r hr
      cases hr
      exact ⟨rfl, k, hmigrated⟩
    · intro fault _
      exact ⟨hmigrated.files, nofun⟩
  · rintro fault after ⟨hafter, -⟩
    exact ⟨hafter, nofun⟩

end

/-! ## The device -/

theorem add_refusal (now : Instant) (b : Bookmark) (r : RecordDirectory Bookmark Locator) :
    (add now b).Ends r fun _ after => after.disk.refusal? = r.disk.refusal? := by
  have hadd : ∀ stored : Bookmark, (RecordDirectory.add stored).Ends r
      fun _ after => after.disk.refusal? = r.disk.refusal? := by
    intro stored
    refine ends_current_bind.mpr (ends_settled_bind ?_ fun _ _ => rfl)
    intro text _
    have hstore := Disk.refusal_store r.path (fileName (Record.keyText Bookmark (Keyed.key stored)))
      temporaryName text.toUTF8 r.disk
    refine ends_onDisk_bind ?_ ?_
    · intro u d hrun
      rw [hrun] at hstore
      exact ends_change_bind.mpr (ends_report.mpr hstore)
    · intro fault d hrun
      rw [hrun] at hstore
      exact hstore
  refine ends_current_bind.mpr (ends_settled_bind ?_ fun _ _ => rfl)
  intro stored _
  refine ends_bind (hadd stored) ?_ fun _ _ hafter => hafter
  exact fun u after hafter => ends_report_bind (ends_pure.mpr hafter)

theorem completeAll_refusal (clock : Nat → Instant) (bookmarks : List Bookmark) (turn : Nat)
    (r : RecordDirectory Bookmark Locator) :
    (completeAll clock bookmarks turn).Ends r
      fun _ after => after.disk.refusal? = r.disk.refusal? := by
  induction bookmarks generalizing r turn with
  | nil => exact ends_pure.mpr rfl
  | cons b rest ih =>
      rw [completeAll]
      split
      · exact ih turn r
      · refine ends_settled_bind ?_ fun _ _ => rfl
        intro updated _
        have hadded : (outcome (add (clock turn) updated)).Ends r
            fun _ after => after.disk.refusal? = r.disk.refusal? :=
          ends_outcome (add_refusal _ updated r)
        refine ends_bind hadded ?_ fun _ _ hafter => hafter
        intro result after hafter
        have hrest : (completeAll clock rest (turn + 1)).Ends after
            fun _ last => last.disk.refusal? = r.disk.refusal? :=
          (ih (turn + 1) after).mono fun _ _ hlast => hlast.trans hafter
        cases result with
        | ok stored =>
            refine ends_bind hrest ?_ fun _ _ hlast => hlast
            exact fun n last hlast => ends_pure.mpr hlast
        | error fault =>
            dsimp only
            split
            · exact ends_report_bind hrest
            · exact fun _ => hafter

/-- What a device refuses is the same after a store on it was opened. -/
theorem load_refusal (clock : Nat → Instant) (p : Path) (d : Disk) :
    (load clock p).Ends d fun _ after => after.refusal? = d.refusal? := by
  have hmade : Disk.Spares isRecordName d (d.makeDirectories p).2 :=
    Disk.spares_makeDirectories p d
  have hopened : (RecordDirectory.load p "url" : Operation Disk _).Ends d fun result after =>
      after.refusal? = d.refusal? ∧
        ∀ r : RecordDirectory Bookmark Locator, result = .ok r → r.disk = after := by
    refine (load_ends_of_made d p "url").mono ?_
    rintro result after (⟨made, hmake, rfl, hopening⟩ | ⟨fault, hmake, rfl⟩)
    · rw [hmake] at hmade
      refine ⟨hmade.refusal, ?_⟩
      rintro r rfl
      obtain ⟨entries, hok, -⟩ | ⟨_, -, -, _, hfault, -⟩ := hopening
      · cases hok
        rfl
      · cases hfault
    · rw [hmake] at hmade
      exact ⟨hmade.refusal, nofun⟩
  refine ends_bind hopened ?_ fun _ _ hafter => hafter.1
  rintro r made ⟨hrefusal, hdisk⟩
  have hmigrated : (migrate clock).Ends r
      fun _ after => after.disk.refusal? = r.disk.refusal? := by
    refine ends_current_bind.mpr (ends_bind (completeAll_refusal clock (all r) 0 r) ?_
      fun _ _ hafter => hafter)
    intro migrated after hafter
    split
    · exact ends_report.mpr hafter
    · exact ends_pure.mpr hafter
  have hlast := hmigrated.execute
  rw [hdisk r rfl, hrefusal] at hlast
  rcases hrun : (migrate clock).execute r with ⟨migrated, last, events⟩
  rw [hrun] at hlast
  refine ends_change_bind.mpr (ends_forM_report_bind (ends_settled_bind ?_ ?_))
  · exact fun _ _ => ends_pure.mpr hlast
  · exact fun _ _ => hlast

end Store

end LinkShelf
