import LinkShelf.Proofs.Storage.Mirror

/-!
Entries that are equal to a value, where equality may disregard the key. Main statements: which one
of them a record directory finds (`exists_of_keyOfSame?_eq_some`), and that it takes this one and no
other away, in memory and on the disk (`removeSame_ends`).
-/

namespace LinkShelf

open Operation

/-! ## Discarding files -/

namespace Disk

variable {d after : Disk} {p : Path}

/-- Whether the file at a path is gone, and everything else is as it was. -/
structure Lost (p : Path) (d after : Disk) : Prop where
  rest : after = { d with files := after.files }
  gone : ∀ l, d.locate p = .ok l → after.files.node? l = none
  others : ∀ l, d.locate p ≠ .ok l → after.files.node? l = d.files.node? l

/-- Nothing is at a path after it was discarded, wherever it leads. -/
theorem lost_of_discard (h : d.discard p = (.ok (), after)) : Lost p d after := by
  obtain ⟨fault, htake⟩ | ⟨files, hfiles, htake⟩ := take_cases (.unlink p) d
  · -- A failure is no obstacle only where the file is missing, and then the disk is as it was.
    have hmissing : ∃ path, fault = .missing path ∧ after = d := by
      rw [discard, htake] at h
      cases fault <;> simp_all
    obtain ⟨path, rfl, rfl⟩ := hmissing
    refine ⟨rfl, fun l hl => ?_, fun _ _ => rfl⟩
    rw [take] at htake
    split at htake
    · cases htake
    · rw [filesAfter, hl, ok_bind, FileSystem.remove] at htake
      cases hnode : after.files.node? l with
      | none => rfl
      | some node =>
          rw [hnode] at htake
          cases node <;> cases htake
  · obtain ⟨l, removed, hl, hnode, rfl⟩ := filesAfter_unlink hfiles
    have hroot : l ≠ [] := by
      rintro rfl
      simp [FileSystem.node?] at hnode
    rw [discard, htake] at h
    cases h
    refine ⟨rfl, fun m hm => ?_, fun m hm => ?_⟩
    · obtain rfl := Except.ok.inj (hl.symm.trans hm)
      rw [FileSystem.node?_drop hroot, if_pos rfl]
    · have hne : m ≠ l := by
        rintro rfl
        exact hm hl
      rw [FileSystem.node?_drop hroot, if_neg hne]

end Disk

/-! ## Entries that are equal -/

namespace RecordDirectory

variable {K V : Type} [DecidableEq K] [Record V K] {entries : Entries K V} {v : V}

/-- Whether an entry after others is the one to take for a value: it is equal to it, and either it
is under the value's own key, or what is under that key is not equal and neither is any entry before
this one. -/
structure IsTakenFor (v : V) (entries front : Entries K V) (e : K × V) : Prop where
  same : Keyed.same e.2 v = true
  chosen : e.1 = Keyed.key v ∨
    ((∀ other ∈ entries, other.1 = Keyed.key v → Keyed.same other.2 v = false) ∧
      ∀ other ∈ front, Keyed.same other.2 v = false)

theorem keyOfSame?_eq_none (hkey : keyOfSame? entries v = none) :
    ∀ e ∈ entries, Keyed.same e.2 v = false := by
  have hfind : ((entries.find? fun e => Keyed.same e.2 v).map (·.1)) = none →
      ∀ e ∈ entries, Keyed.same e.2 v = false := by
    simp
  rw [keyOfSame?] at hkey
  split at hkey
  · split at hkey
    · cases hkey
    · exact hfind hkey
  · exact hfind hkey

/-- The key that is found is that of the entry to take. -/
theorem exists_of_keyOfSame?_eq_some (hdistinct : (Entries.keys entries).Nodup) {key : K}
    (hkey : keyOfSame? entries v = some key) :
    ∃ front e back, entries = front ++ e :: back ∧ e.1 = key ∧ IsTakenFor v entries front e := by
  have hfind (hown : ∀ other ∈ entries, other.1 = Keyed.key v → Keyed.same other.2 v = false)
      (hfound : (entries.find? fun e => Keyed.same e.2 v).map (·.1) = some key) :
      ∃ front e back, entries = front ++ e :: back ∧ e.1 = key ∧
        IsTakenFor v entries front e := by
    obtain ⟨e, he, rfl⟩ := Option.map_eq_some_iff.mp hfound
    obtain ⟨hsame, front, back, hentries, hfront⟩ := List.find?_eq_some_iff_append.mp he
    exact ⟨front, e, back, hentries, rfl, hsame, .inr ⟨hown, by simpa using hfront⟩⟩
  have hunder : ∀ other ∈ entries, other.1 = Keyed.key v →
      entries.value? (Keyed.key v) = some other.2 := by
    rintro ⟨k, w⟩ hother rfl
    exact (Entries.value?_eq_some_iff hdistinct).mpr hother
  rw [keyOfSame?] at hkey
  split at hkey
  · next found hfound =>
      split at hkey
      · next hsame =>
          obtain rfl := Option.some.inj hkey
          obtain ⟨front, back, hentries⟩ :=
            List.append_of_mem (Entries.mem_of_value?_eq_some hfound)
          exact ⟨front, (Keyed.key v, found), back, hentries, rfl, hsame, .inl rfl⟩
      · next hsame =>
          refine hfind (fun other hother hown => ?_) hkey
          obtain rfl := Option.some.inj (hfound.symm.trans (hunder other hother hown))
          simpa using hsame
  · next hnone =>
      refine hfind (fun other hother hown => ?_) hkey
      cases hnone.symm.trans (hunder other hother hown)

/-! ## Taking an entry away -/

variable {r : RecordDirectory V K}

/-- Whether an entry between others was taken out of a directory: it is gone from memory, and so is
the file of its key from the disk, and everything else is as it was. -/
structure Loses (r : RecordDirectory V K) (front : Entries K V) (e : K × V) (back : Entries K V)
    (after : RecordDirectory V K) : Prop where
  before : r.entries = front ++ e :: back
  entries : after.entries = front ++ back
  disk : Disk.Lost (r.path.child (nameOf V e.1)) r.disk after.disk
  path : after.path = r.path
  keyName : after.keyName = r.keyName

/-- An entry is taken out by its key, unless its file cannot be. -/
theorem remove_loses {front back : Entries K V} {e : K × V}
    (hdistinct : (Entries.keys r.entries).Nodup) (hentries : r.entries = front ++ e :: back) :
    (remove e.1).Ends r fun result after => (∃ fault, result = .error fault) ∨
      (result = .ok (some e.2) ∧ Loses r front e back after) := by
  rw [hentries] at hdistinct
  refine ends_current_bind.mpr ?_
  rw [hentries, Entries.value?_of_split hdistinct]
  refine ends_onDisk_bind ?_ fun fault d _ => .inl ⟨_, rfl⟩
  intro u d hdiscard
  refine ends_report_bind (ends_change_bind.mpr (ends_pure.mpr (.inr ⟨rfl, hentries, ?_, ?_, rfl,
    rfl⟩)))
  · simp only [hentries]
    exact Entries.drop_of_split hdistinct
  · exact Disk.lost_of_discard hdiscard

/-- A directory without an equal entry is left as it is; of those that there are it loses the one to
take, which is given back. -/
theorem removeSame_ends (hdistinct : (Entries.keys r.entries).Nodup) (v : V) :
    (removeSame v).Ends r fun result after => (∃ fault, result = .error fault) ∨
      ((∀ e ∈ r.entries, Keyed.same e.2 v = false) ∧ result = .ok none ∧ after = r) ∨
      ∃ front e back, IsTakenFor v r.entries front e ∧ result = .ok (some e.2) ∧
        Loses r front e back after := by
  refine ends_current_bind.mpr ?_
  cases hkey : keyOfSame? r.entries v with
  | none => exact ends_pure.mpr (.inr (.inl ⟨keyOfSame?_eq_none hkey, rfl, rfl⟩))
  | some key =>
      obtain ⟨front, e, back, hentries, rfl, htaken⟩ := exists_of_keyOfSame?_eq_some hdistinct hkey
      refine (remove_loses hdistinct hentries).mono ?_
      rintro result after (hfault | ⟨hok, hloses⟩)
      · exact .inl hfault
      · exact .inr (.inr ⟨front, e, back, htaken, hok, hloses⟩)

end RecordDirectory

end LinkShelf
