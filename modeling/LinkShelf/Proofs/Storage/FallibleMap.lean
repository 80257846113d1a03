import LinkShelf.Proofs.Alike
import LinkShelf.Proofs.Storage.Reliable
import LinkShelf.Proofs.Storage.Unobstructed

/-!
Maps that fail when they are told to: one that keeps its entries in memory, and a record directory
whose device refuses to make files or to remove them. Main statement: nothing that is done to the
two tells them apart, as long as the values that are put into them can be written (`mapsAlike`).
-/

namespace LinkShelf

open Operation

/-- The reasons for which values are not written or not deleted, if they are not. -/
structure Faults where
  write? : Option String
  delete? : Option String

class Fallible (σ : Type) where
  failing : Faults → σ → σ

/-- Entries in memory, in the order in which their keys came. A change fails before anything is
done, but one that would delete nothing does not fail. -/
structure FallibleMap (K V : Type) where
  entries : Entries K V
  faults : Faults

namespace FallibleMap

variable {K V : Type} [DecidableEq K] [Keyed V K]

def empty : FallibleMap K V := ⟨[], none, none⟩

instance : Fallible (FallibleMap K V) where
  failing faults m := { m with faults }

def add (v : V) : Operation (FallibleMap K V) Unit := do
  match (← Operation.current).faults.write? with
  | some reason => throw (.file (.device reason))
  | none => Operation.change fun m => { m with entries := m.entries.put (Keyed.key v) v }

def remove (key : K) : Operation (FallibleMap K V) (Option V) := do
  let m ← Operation.current
  match m.entries.value? key with
  | none => return none
  | some v =>
    match m.faults.delete? with
    | some reason => throw (.file (.device reason))
    | none =>
      Operation.change fun m => { m with entries := m.entries.drop key }
      return some v

def removeSame (v : V) : Operation (FallibleMap K V) (Option V) := do
  match (← Operation.current).entries.find? fun e => Keyed.same e.2 v with
  | none => return none
  | some (key, _) => remove key

instance : KeyedMap (FallibleMap K V) K V where
  value? m := m.entries.value?
  values m := m.entries.values
  add := add
  remove := remove
  removeSame := removeSame

end FallibleMap

section

variable {σ τ K V : Type} [DecidableEq K] [Keyed V K] [KeyedMap σ K V] [KeyedMap τ K V]

/-- Whether two maps that are related hold the same, and every change that puts only fitting values
into them ends alike on both. -/
structure MapsAlike (Fits : V → Prop) (Rel : σ → τ → Prop) : Prop where
  value? : ∀ {s t}, Rel s t → ∀ key, KeyedMap.value? s key = KeyedMap.value? t key
  values : ∀ {s t}, Rel s t → KeyedMap.values s = KeyedMap.values t
  fits : ∀ {s t key v}, Rel s t → KeyedMap.value? t key = some v → Fits v
  add : ∀ {s t v}, Rel s t → Fits v → Alike Rel (KeyedMap.add v) (KeyedMap.add v) s t
  remove : ∀ {s t}, Rel s t → ∀ key, Alike Rel (KeyedMap.remove key) (KeyedMap.remove key) s t
  removeSame : ∀ {s t}, Rel s t → ∀ v,
    Alike Rel (KeyedMap.removeSame v) (KeyedMap.removeSame v) s t

end

namespace FallibleMap

variable {K V : Type} [DecidableEq K] [Keyed V K]

/-- Whether two maps in memory have the same entries, and none of them fails. -/
structure IsFaultless (m : FallibleMap K V) (plain : MemoryMap K V) : Prop where
  entries : plain.entries = m.entries
  sound : m.entries.IsSound
  faults : m.faults = ⟨none, none⟩
  addRefused : ∀ key, plain.addRefused key = false
  removeRefused : ∀ key, plain.removeRefused key = false

namespace IsFaultless

variable {m : FallibleMap K V} {plain : MemoryMap K V} (h : IsFaultless m plain)

include h

theorem put (v : V) :
    IsFaultless { m with entries := m.entries.put (Keyed.key v) v } (plain.insert v) where
  entries := by rw [← h.entries, MemoryMap.insert]
  sound := h.sound.put v
  faults := h.faults
  addRefused := h.addRefused
  removeRefused := h.removeRefused

theorem drop (key : K) :
    IsFaultless { m with entries := m.entries.drop key } (plain.erase key) where
  entries := by rw [← h.entries, MemoryMap.erase]
  sound := h.sound.drop key
  faults := h.faults
  addRefused := h.addRefused
  removeRefused := h.removeRefused

theorem add_alike (v : V) : Alike IsFaultless (add v) (KeyedMap.add v) m plain := by
  refine alike_current_bind ?_
  simp only [h.faults, h.addRefused, Bool.false_eq_true, if_false]
  exact fun _ _ => ⟨rfl, h.put v⟩

theorem remove_alike (key : K) :
    Alike IsFaultless (remove key) (KeyedMap.remove key) m plain := by
  refine alike_current_bind ?_
  simp only [h.faults, h.removeRefused, Bool.false_eq_true, if_false, h.entries]
  cases hvalue : m.entries.value? key with
  | none =>
      have hdrop := h.drop key
      rw [Entries.drop_of_value?_eq_none hvalue] at hdrop
      exact fun _ _ => ⟨rfl, hdrop⟩
  | some v => exact fun _ _ => ⟨rfl, h.drop key⟩

theorem removeSame_alike (v : V) :
    Alike IsFaultless (removeSame v) (KeyedMap.removeSame v) m plain := by
  cases hfind : m.entries.find? fun e => Keyed.same e.2 v with
  | none =>
      refine alike_current_bind ?_
      simp only [h.entries, hfind]
      exact alike_pure h none
  | some e =>
      have hvalue : m.entries.value? e.1 = some e.2 :=
        (Entries.value?_eq_some_iff h.sound.distinct).mpr (List.mem_of_find?_eq_some hfind)
      have hdelete : m.faults.delete? = none := by rw [h.faults]
      have hleft : (removeSame v).Ends m fun result after =>
          result = .ok (some e.2) ∧ after = { m with entries := m.entries.drop e.1 } := by
        refine ends_current_bind.mpr ?_
        simp only [hfind]
        refine ends_current_bind.mpr ?_
        simp only [hvalue, hdelete]
        exact ends_change_bind.mpr (ends_pure.mpr ⟨rfl, rfl⟩)
      have hright : (KeyedMap.removeSame v).Ends plain fun result after =>
          result = .ok (some e.2) ∧ after = plain.erase e.1 := by
        refine ends_current_bind.mpr ?_
        simp only [h.entries, hfind]
        exact ends_change_bind.mpr (ends_pure.mpr ⟨rfl, rfl⟩)
      apply alike_of_ends hleft hright
      rintro _ _ _ _ ⟨rfl, rfl⟩ ⟨rfl, rfl⟩
      exact ⟨rfl, h.drop e.1⟩

end IsFaultless

/-- A map that does not fail does as a plain one in memory. -/
theorem mapsAlike_plain :
    MapsAlike (fun _ : V => True) (IsFaultless : FallibleMap K V → MemoryMap K V → Prop) where
  value? h key := congrArg (fun entries : Entries K V => entries.value? key) h.entries.symm
  values h := congrArg Entries.values h.entries.symm
  fits _ _ := trivial
  add h _ := h.add_alike _
  remove h := h.remove_alike
  removeSame h := h.removeSame_alike

section

variable {m : FallibleMap K V}

theorem add_ne_oversized (v : V) :
    (add v).Ends m fun result _ => result ≠ .error .oversizedInteger := by
  refine ends_current_bind.mpr ?_
  cases m.faults.write? with
  | some reason => exact fun _ => nofun
  | none => exact ends_change.mpr nofun

omit [Keyed V K] in
theorem remove_ne_oversized (key : K) :
    (remove key).Ends m fun result _ => result ≠ .error .oversizedInteger := by
  refine ends_current_bind.mpr ?_
  cases m.entries.value? key with
  | none => exact ends_pure.mpr nofun
  | some v =>
      cases m.faults.delete? with
      | some reason => exact fun _ => nofun
      | none => exact ends_change_bind.mpr (ends_pure.mpr nofun)

end

end FallibleMap

/-- What a device refuses that fails in some way: new files and the removal of files. -/
def Faults.refusal? (faults : Faults) : FileStep → Option String
  | .create _ => faults.write?
  | .unlink _ => faults.delete?
  | _ => none

namespace RecordDirectory

variable {K V : Type} [Record V K]

instance : Fallible (RecordDirectory V K) where
  failing faults r := { r with disk := { r.disk with refusal? := faults.refusal? } }

variable [DecidableEq K] {p : Path} {l : Location} {r : RecordDirectory V K} {v : V} {key : K}
  {reason : String}

/-- A directory without files is opened with no entries. -/
theorem load_of_empty {d made : Disk} (hmade : d.makeDirectories p = (.ok (), made))
    (hlocated : made.locate p = .ok l) (hempty : made.files.names l = []) (keyName : String) :
    (load p keyName : Operation Disk (RecordDirectory V K)).Ends d fun result after =>
      result = .ok ⟨made, p, keyName, []⟩ ∧ after = made := by
  have hnames : recordNames made p = [] := by
    simp [recordNames, Disk.names, hlocated, hempty]
  refine Disk.ends_attempt_bind ?_ fun _ _ hfault => by cases hmade.symm.trans hfault
  intro _ after hafter
  cases hmade.symm.trans hafter
  refine ends_current_bind.mpr ?_
  rw [hnames]
  exact fun _ => ⟨rfl, rfl⟩

theorem add_of_unwritable {fault : Failure} (hv : recordText v = .error fault) :
    (add v).Ends r fun result _ => result = .error fault := by
  refine ends_current_bind.mpr ?_
  rw [hv]
  exact fun _ => rfl

section

variable (h : IsUnobstructed r.path l r.disk)

include h

theorem add_of_refused (hcreate : ∀ q, r.disk.refusal? (.create q) = some reason) {text : String}
    (htext : recordText v = .ok text) :
    (add v).Ends r fun result after => result = .error (.file (.device reason)) ∧ after = r := by
  have hstore := h.store_eq_error hcreate (Record.keyText V (Keyed.key v)) text.toUTF8
  refine ends_current_bind.mpr ?_
  simp only [htext]
  refine ends_settled_ok_bind.mpr (ends_onDisk_bind ?_ ?_)
  · intro u d hrun
    cases hstore.symm.trans hrun
  · intro fault d hrun
    cases hstore.symm.trans hrun
    exact ⟨rfl, rfl⟩

theorem add_of_allowed (hcreate : ∀ q, r.disk.refusal? (.create q) = none)
    (hextend : ∀ q bytes, r.disk.refusal? (.extend q bytes) = none)
    (hmove : ∀ source target, r.disk.refusal? (.move source target) = none) {text : String}
    (htext : recordText v = .ok text) :
    ∃ files, IsUnobstructed r.path l { r.disk with files } ∧
      (add v).Ends r fun result after => result = .ok () ∧ after = { r with
        disk := { r.disk with files }, entries := r.entries.put (Keyed.key v) v } := by
  obtain ⟨files, hstore, hdisk⟩ := h.store_eq_ok hcreate hextend hmove
    (Record.keyText V (Keyed.key v)) text.toUTF8
  refine ⟨files, hdisk, ends_current_bind.mpr ?_⟩
  simp only [htext]
  refine ends_settled_ok_bind.mpr (ends_onDisk_bind ?_ ?_)
  · intro u d hrun
    cases hstore.symm.trans hrun
    exact ends_change_bind.mpr (ends_report.mpr ⟨rfl, rfl⟩)
  · intro fault d hrun
    cases hstore.symm.trans hrun

omit h in
theorem add_of_isFree (hfree : IsFree r.path l r.disk) {text : String}
    (htext : recordText v = .ok text) :
    (add v).Ends r fun result after => result = .ok () ∧ IsFree after.path l after.disk := by
  obtain ⟨files, hfiles, hadd⟩ := add_of_allowed hfree.toIsUnobstructed (fun _ => hfree.allowed _)
    (fun _ _ => hfree.allowed _) (fun _ _ => hfree.allowed _) htext
  refine hadd.mono ?_
  rintro result after ⟨rfl, rfl⟩
  exact ⟨rfl, hfiles, hfree.allowed⟩

omit h in
theorem remove_of_refused (hunlink : ∀ q, r.disk.refusal? (.unlink q) = some reason)
    (hv : r.entries.value? key = some v) :
    (remove key).Ends r fun result after =>
      result = .error (.file (.device reason)) ∧ after = r := by
  have hdiscard := IsUnobstructed.discard_eq_error (p := r.path) hunlink (Record.keyText V key)
  refine ends_current_bind.mpr ?_
  simp only [hv]
  refine ends_onDisk_bind ?_ ?_
  · intro u d hrun
    cases hdiscard.symm.trans hrun
  · intro fault d hrun
    cases hdiscard.symm.trans hrun
    exact ⟨rfl, rfl⟩

theorem remove_of_allowed (hunlink : ∀ q, r.disk.refusal? (.unlink q) = none)
    (hv : r.entries.value? key = some v) :
    ∃ files, IsUnobstructed r.path l { r.disk with files } ∧
      (remove key).Ends r fun result after => result = .ok (some v) ∧ after = { r with
        disk := { r.disk with files }, entries := r.entries.drop key } := by
  obtain ⟨files, hdiscard, hdisk⟩ := h.discard_eq_ok hunlink (Record.keyText V key)
  refine ⟨files, hdisk, ends_current_bind.mpr ?_⟩
  simp only [hv]
  refine ends_onDisk_bind ?_ ?_
  · intro u d hrun
    cases hdiscard.symm.trans hrun
    exact ends_report_bind (ends_change_bind.mpr (ends_pure.mpr ⟨rfl, rfl⟩))
  · intro fault d hrun
    cases hdiscard.symm.trans hrun

end

/-- Where only equal values of one key are told to be the same, the first of them is the one that a
directory finds. -/
theorem keyOfSame?_eq_find? {entries : Entries K V} (hsound : entries.IsSound)
    (hsame : ∀ v w : V, Keyed.same v w = true → Keyed.key v = Keyed.key w) (v : V) :
    keyOfSame? entries v = (entries.find? fun e => Keyed.same e.2 v).map (·.1) := by
  rw [keyOfSame?]
  split
  · next found hfound =>
      split
      · next hequal =>
          have hmem := Entries.mem_of_value?_eq_some hfound
          cases hfind : entries.find? fun e => Keyed.same e.2 v with
          | none => exact absurd hequal (List.find?_eq_none.mp hfind _ hmem)
          | some e =>
              -- The first equal value has the same key, so it is the one under that key.
              have hkey := hsound.keyed e (List.mem_of_find?_eq_some hfind)
              have hfirst : Keyed.same e.2 v = true := by simpa using List.find?_some hfind
              rw [Option.map_some, ← hkey, hsame e.2 v hfirst]
      · rfl
  · rfl

/-- Whether a directory in which nothing is in the way of records has the entries of a map in
memory, all of them fitting, and fails as it does. -/
structure Mimics (Fits : V → Prop) (p : Path) (l : Location) (r : RecordDirectory V K)
    (m : FallibleMap K V) : Prop where
  path : r.path = p
  disk : IsUnobstructed r.path l r.disk
  refusal : r.disk.refusal? = m.faults.refusal?
  entries : r.entries = m.entries
  sound : m.entries.IsSound
  fits : ∀ e ∈ m.entries, Fits e.2

namespace Mimics

variable {Fits : V → Prop} {m : FallibleMap K V}

omit [DecidableEq K] in
/-- An empty directory and an empty map do, once they are made to fail alike. -/
theorem of_empty {d : Disk} (hlocated : d.locate p = .ok l)
    (hdirectory : d.files.isDirectory l = true) (hempty : d.files.names l = [])
    (hroom : p.text.utf8ByteSize + 46 ≤ Disk.maxPathBytes) (keyName : String) (faults : Faults) :
    Mimics Fits p l (Fallible.failing faults (⟨d, p, keyName, []⟩ : RecordDirectory V K))
      (Fallible.failing faults FallibleMap.empty) where
  path := rfl
  disk := isUnobstructed_of_empty hlocated hdirectory hempty hroom
  refusal := rfl
  entries := rfl
  sound := ⟨nofun, List.nodup_nil⟩
  fits := nofun

variable (h : Mimics Fits p l r m)

include h

omit [DecidableEq K] in
theorem failing (faults : Faults) :
    Mimics Fits p l (Fallible.failing faults r) (Fallible.failing faults m) where
  path := h.path
  disk := ⟨⟨h.disk.located, h.disk.directory, h.disk.room, h.disk.files⟩, h.disk.free⟩
  refusal := rfl
  entries := h.entries
  sound := h.sound
  fits := h.fits

theorem put {files : FileSystem} (hdisk : IsUnobstructed r.path l { r.disk with files })
    (hv : Fits v) :
    Mimics Fits p l
      { r with disk := { r.disk with files }, entries := r.entries.put (Keyed.key v) v }
      { m with entries := m.entries.put (Keyed.key v) v } where
  path := h.path
  disk := hdisk
  refusal := h.refusal
  entries := by rw [h.entries]
  sound := h.sound.put v
  fits e he := by
    obtain rfl | ⟨hold, -⟩ := Entries.mem_put h.sound.distinct he
    · exact hv
    · exact h.fits e hold

theorem drop {files : FileSystem} (hdisk : IsUnobstructed r.path l { r.disk with files })
    (key : K) :
    Mimics Fits p l { r with disk := { r.disk with files }, entries := r.entries.drop key }
      { m with entries := m.entries.drop key } where
  path := h.path
  disk := hdisk
  refusal := h.refusal
  entries := by rw [h.entries]
  sound := h.sound.drop key
  fits e he := h.fits e (Entries.mem_drop.mp he).1

theorem add_alike (hv : Fits v) {text : String} (htext : recordText v = .ok text) :
    Alike (Mimics Fits p l) (add v) (FallibleMap.add v) r m := by
  have hrefusal := congrFun h.refusal
  cases hwrite : m.faults.write? with
  | some reason =>
      have hright : (FallibleMap.add v).Ends m fun result after =>
          result = .error (.file (.device reason)) ∧ after = m := by
        refine ends_current_bind.mpr ?_
        simp only [hwrite]
        exact fun _ => ⟨rfl, rfl⟩
      apply alike_of_ends (add_of_refused h.disk (fun q => (hrefusal _).trans hwrite) htext) hright
      rintro _ _ _ _ ⟨rfl, rfl⟩ ⟨rfl, rfl⟩
      exact ⟨rfl, h⟩
  | none =>
      obtain ⟨files, hdisk, hleft⟩ := add_of_allowed h.disk (fun q => (hrefusal _).trans hwrite)
        (fun q bytes => hrefusal _) (fun source target => hrefusal _) htext
      have hright : (FallibleMap.add v).Ends m fun result after =>
          result = .ok () ∧ after = { m with entries := m.entries.put (Keyed.key v) v } := by
        refine ends_current_bind.mpr ?_
        simp only [hwrite]
        exact ends_change.mpr ⟨rfl, rfl⟩
      apply alike_of_ends hleft hright
      rintro _ _ _ _ ⟨rfl, rfl⟩ ⟨rfl, rfl⟩
      exact ⟨rfl, h.put hdisk hv⟩

theorem remove_alike (key : K) :
    Alike (Mimics Fits p l) (remove key) (FallibleMap.remove key) r m := by
  have hrefusal := congrFun h.refusal
  cases hvalue : m.entries.value? key with
  | none =>
      refine alike_current_bind ?_
      simp only [h.entries, hvalue]
      exact alike_pure h none
  | some v =>
      have hentry : r.entries.value? key = some v := by rw [h.entries, hvalue]
      cases hdelete : m.faults.delete? with
      | some reason =>
          have hright : (FallibleMap.remove key).Ends m fun result after =>
              result = .error (.file (.device reason)) ∧ after = m := by
            refine ends_current_bind.mpr ?_
            simp only [hvalue, hdelete]
            exact fun _ => ⟨rfl, rfl⟩
          apply alike_of_ends (remove_of_refused (fun q => (hrefusal _).trans hdelete) hentry)
            hright
          rintro _ _ _ _ ⟨rfl, rfl⟩ ⟨rfl, rfl⟩
          exact ⟨rfl, h⟩
      | none =>
          obtain ⟨files, hdisk, hleft⟩ :=
            remove_of_allowed h.disk (fun q => (hrefusal _).trans hdelete) hentry
          have hright : (FallibleMap.remove key).Ends m fun result after =>
              result = .ok (some v) ∧ after = { m with entries := m.entries.drop key } := by
            refine ends_current_bind.mpr ?_
            simp only [hvalue, hdelete]
            exact ends_change_bind.mpr (ends_pure.mpr ⟨rfl, rfl⟩)
          apply alike_of_ends hleft hright
          rintro _ _ _ _ ⟨rfl, rfl⟩ ⟨rfl, rfl⟩
          exact ⟨rfl, h.drop hdisk key⟩

theorem removeSame_alike (hsame : ∀ v w : V, Keyed.same v w = true → Keyed.key v = Keyed.key w)
    (v : V) : Alike (Mimics Fits p l) (removeSame v) (FallibleMap.removeSame v) r m := by
  refine alike_current_bind ?_
  rw [h.entries, keyOfSame?_eq_find? h.sound hsame]
  cases m.entries.find? fun e => Keyed.same e.2 v with
  | none => exact alike_pure h none
  | some e => exact h.remove_alike e.1

end Mimics

/-- A directory and a map in memory that fail alike are not told apart. -/
theorem mapsAlike {Fits : V → Prop} (hfits : ∀ v, Fits v → ∃ text, recordText v = .ok text)
    (hsame : ∀ v w : V, Keyed.same v w = true → Keyed.key v = Keyed.key w) (p : Path)
    (l : Location) : MapsAlike Fits (Mimics Fits p l : RecordDirectory V K → _) where
  value? h key := congrArg (fun entries : Entries K V => entries.value? key) h.entries
  values h := congrArg Entries.values h.entries
  fits h hv := h.fits _ (Entries.mem_of_value?_eq_some hv)
  add h hv := by
    obtain ⟨text, htext⟩ := hfits _ hv
    exact h.add_alike hv htext
  remove h := h.remove_alike
  removeSame h := h.removeSame_alike hsame

end RecordDirectory

end LinkShelf
