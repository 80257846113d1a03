import LinkShelf.Proofs.Storage.Contents
import LinkShelf.Proofs.Storage.Mirror

/-!
Directories in which every record file has the name of the key of its value. Main statements: the
directory stays such a one when a value is written to the file of its key (`of_rewritten`), as it is
by an addition (`add_of_stored`); that key then has the value, and every other one has what it had,
unless it shares the file (`lastHeld?_self`, `lastHeld?_other`).
-/

namespace LinkShelf.RecordDirectory

open Operation

variable {V K : Type} [Record V K] {d other : Disk} {p : Path} {content : ByteArray}
  {E W : V → Prop} {name : String} {key : K} {v : V}

/-- Whether every record file of a directory holds a value of a kind, and has the name of the key of
that value. -/
def HoldsNamed (E : V → Prop) (p : Path) (d : Disk) : Prop :=
  ∀ name ∈ recordNames d p, ∃ v, readRecord d (p.child name) = .ok v ∧
    name = nameOf V (Keyed.key v) ∧ E v

theorem SameFiles.trans_rewritten {content? : Option ByteArray} {mid : Disk}
    (hsame : SameFiles p d mid) (h : Rewritten p name content? mid other) :
    Rewritten p name content? d other := by
  constructor
  · intro n
    rw [h.names, hsame.names]
  · intro n hn
    rw [h.bytes n hn, hsame.bytes n hn]

namespace HoldsNamed

/-- What is known of values that are read can be added to their kind. -/
theorem mono (h : HoldsNamed E p d)
    (hread : ∀ content v, valueOfBytes content = .ok v → E v → W v) : HoldsNamed W p d := by
  intro name hname
  obtain ⟨v, hv, hnamed, hkind⟩ := h name hname
  obtain ⟨content, -, hcontent⟩ := readRecord_eq_ok.mp hv
  exact ⟨v, hv, hnamed, hread content v hcontent hkind⟩

theorem handled (h : HoldsNamed E p d) : ∀ name ∈ recordNames d p, IsHandled V d p name := by
  intro name hname fault hfault
  obtain ⟨v, hv, -⟩ := h name hname
  cases hv.symm.trans hfault

theorem of_mem_records (h : HoldsNamed E p d) (hmem : (name, v) ∈ records V d p) :
    name = nameOf V (Keyed.key v) ∧ E v := by
  obtain ⟨hname, hread⟩ := mem_records_iff_mem.mp hmem
  obtain ⟨w, hw, hnamed, hkind⟩ := h name hname
  obtain rfl : w = v := Except.ok.inj (hw.symm.trans hread)
  exact ⟨hnamed, hkind⟩

/-- The value of a key is the one in its own file. -/
theorem lastHeld?_eq_some_iff [DecidableEq K] (h : HoldsNamed E p d) :
    lastHeld? (records V d p) key = some v ↔
      (nameOf V key, v) ∈ records V d p ∧ Keyed.key v = key := by
  rw [lastHeld?_eq_some (inOrder_records d p)]
  constructor
  · rintro ⟨n, hn, rfl, -⟩
    rw [← (h.of_mem_records hn).1]
    exact ⟨hn, rfl⟩
  · rintro ⟨hmem, rfl⟩
    refine ⟨_, hmem, rfl, ?_⟩
    intro m w hm hkey
    rw [(h.of_mem_records hm).1, hkey]

theorem of_lastHeld? [DecidableEq K] (h : HoldsNamed E p d)
    (hv : lastHeld? (records V d p) key = some v) : Keyed.key v = key ∧ E v := by
  obtain ⟨hmem, hkey⟩ := h.lastHeld?_eq_some_iff.mp hv
  exact ⟨hkey, (h.of_mem_records hmem).2⟩

/-- A value that is written to the file of its key keeps the files named. -/
theorem of_rewritten (h : HoldsNamed E p d)
    (hrewritten : Rewritten p (nameOf V (Keyed.key v)) (some content) d other)
    (hcontent : valueOfBytes content = .ok v) (hv : E v) : HoldsNamed E p other := by
  intro name hname
  have hbytes := hrewritten.bytes name (isRecordName_of_mem hname)
  rw [hrewritten.names] at hname
  by_cases hown : name = nameOf V (Keyed.key v)
  · rw [if_pos hown] at hbytes
    exact ⟨v, readRecord_eq_ok.mpr ⟨content, hbytes, hcontent⟩, hown, hv⟩
  · rw [if_neg hown] at hname hbytes
    obtain ⟨w, hw, hnamed, hkind⟩ := h name hname
    obtain ⟨held, hheld, hvalue⟩ := readRecord_eq_ok.mp hw
    exact ⟨w, readRecord_eq_ok.mpr ⟨held, hbytes.trans hheld, hvalue⟩, hnamed, hkind⟩

variable [DecidableEq K] (h : HoldsNamed E p d)
  (hrewritten : Rewritten p (nameOf V (Keyed.key v)) (some content) d other)
  (hcontent : valueOfBytes content = .ok v)

include h hrewritten hcontent

theorem lastHeld?_self : lastHeld? (records V other p) (Keyed.key v) = some v := by
  have hany : HoldsNamed (fun _ : V => True) p d := h.mono fun _ _ _ _ => trivial
  rw [(hany.of_rewritten hrewritten hcontent trivial).lastHeld?_eq_some_iff,
    mem_records_of_rewritten hrewritten (isRecordName_nameOf (Keyed.key v)), if_pos rfl]
  exact ⟨⟨content, rfl, hcontent⟩, rfl⟩

/-- A key keeps its value unless the file that held it was written. -/
theorem lastHeld?_other (hne : key ≠ Keyed.key v)
    (hfile : lastHeld? (records V d p) key ≠ none → nameOf V key ≠ nameOf V (Keyed.key v)) :
    lastHeld? (records V other p) key = lastHeld? (records V d p) key := by
  refine lastHeld?_congr (inOrder_records d p) (inOrder_records other p) ?_
  rintro n w rfl
  rw [mem_records_of_rewritten hrewritten (isRecordName_nameOf (Keyed.key v))]
  split
  · next hn =>
      refine iff_of_false ?_ ?_
      · rintro ⟨held, hheld, hw⟩
        obtain rfl := Option.some.inj hheld
        exact hne (by rw [Except.ok.inj (hw.symm.trans hcontent)])
      · intro hw
        refine hfile ?_ ((h.of_mem_records hw).1.symm.trans hn)
        exact fun hnone => lastHeld?_eq_none.mp hnone _ hw rfl
  · rfl

end HoldsNamed

/-- A value is added, and changes no other file, where its own file can be stored. -/
theorem add_of_stored [DecidableEq K] {r : RecordDirectory V K} {l : Location} {text : String}
    (hlies : LiesAt r.disk r.path l) (htext : recordText v = .ok text)
    (hstore : (r.disk.store r.path (nameOf V (Keyed.key v)) temporaryName text.toUTF8).1 = .ok ()) :
    (add v).Ends r fun result after => result = .ok () ∧ LiesAt after.disk r.path l ∧
      Rewritten r.path (nameOf V (Keyed.key v)) (some text.toUTF8) r.disk after.disk := by
  refine ends_current_bind.mpr ?_
  simp only [htext]
  refine ends_settled_ok_bind.mpr ?_
  obtain ⟨stored, hplace, ⟨hstored, hfiles⟩ | ⟨fault, hstored, -⟩⟩ :=
    hlies.store (Record.keyText V (Keyed.key v)) text.toUTF8
  · refine ends_onDisk_bind ?_ ?_
    · intro u d hrun
      cases hstored.symm.trans hrun
      exact ends_change_bind.mpr (ends_report.mpr ⟨rfl, hplace, hfiles⟩)
    · intro fault d hrun
      cases hstored.symm.trans hrun
  · rw [nameOf, hstored] at hstore
    cases hstore

end LinkShelf.RecordDirectory
