import LinkShelf.Proofs.Number.Digits
import LinkShelf.Proofs.Storage.Reliable
import LinkShelf.Proofs.Storage.Unobstructed

/-!
What is relied on in a map when values are written: a value comes to be among the entries, or its
writing fails for a reason that lies in the files, and the entries stay as they were. Entries in
memory are such a map (`MemoryMap.keepsEntries`), and so is a record directory
(`RecordDirectory.keepsEntries`). A map may be watched while values are written (`Watched`), which
makes no difference to what is done to it (`Watched.shows_add`, `Watched.shows_bind`).
-/

namespace LinkShelf

open Operation

/-! ## Faults of a disk -/

def FileStep.paths : FileStep → List Path
  | .create p => [p]
  | .extend p _ => [p]
  | .move source target => [source, target]
  | .unlink p => [p]

namespace Disk

variable {d : Disk} {p : Path}

theorem locate_ne_pathWithEnd (hp : '\x00' ∉ p.text.toList) : d.locate p ≠ .error .pathWithEnd := by
  rw [locate, if_neg (by simpa using hp)]
  split
  · simp
  · exact FileSystem.walk_ne_pathWithEnd

/-- Only a path that is cut off by its own text is none for a step. -/
theorem filesAfter_ne_pathWithEnd {s : FileStep} (hs : ∀ p ∈ s.paths, '\x00' ∉ p.text.toList) :
    d.filesAfter s ≠ .error .pathWithEnd := by
  have hwrite : ∀ l content path, d.files.write l content path ≠ .error .pathWithEnd := by
    intro l content path
    rw [FileSystem.write]
    split <;> simp
  cases s with
  | create p =>
      refine bind_ne_error (locate_ne_pathWithEnd (hs p (by simp [FileStep.paths]))) fun l => ?_
      exact hwrite l _ _
  | extend p content =>
      refine bind_ne_error (locate_ne_pathWithEnd (hs p (by simp [FileStep.paths]))) fun l => ?_
      exact hwrite l _ _
  | move source target =>
      have hsource := hs source (by simp [FileStep.paths])
      have htarget := hs target (by simp [FileStep.paths])
      refine bind_ne_error (locate_ne_pathWithEnd hsource) fun k => ?_
      refine bind_ne_error (locate_ne_pathWithEnd htarget) fun m => ?_
      rw [FileSystem.move]
      split
      · simp
      · split <;> simp
  | unlink p =>
      refine bind_ne_error (locate_ne_pathWithEnd (hs p (by simp [FileStep.paths]))) fun l => ?_
      rw [FileSystem.remove]
      split <;> simp

theorem takeAll_ne_pathWithEnd {steps : List FileStep}
    (hsteps : ∀ s ∈ steps, ∀ p ∈ s.paths, '\x00' ∉ p.text.toList) :
    (d.takeAll steps).1 ≠ .error .pathWithEnd := by
  induction steps generalizing d with
  | nil => simp [takeAll]
  | cons s rest ih =>
      rw [takeAll]
      split
      · exact ih fun other hother => hsteps other (List.mem_cons_of_mem s hother)
      · next fault after htake =>
          rw [take] at htake
          split at htake
          · cases htake
            simp
          · have hfiles := filesAfter_ne_pathWithEnd (d := d) (hsteps s List.mem_cons_self)
            cases hafter : d.filesAfter s with
            | ok files =>
                rw [hafter] at htake
                cases htake
            | error other =>
                rw [hafter] at htake hfiles
                cases htake
                simpa using hfiles

end Disk

namespace RecordDirectory

theorem end_not_mem_temporaryName (n : Nat) : '\x00' ∉ (temporaryName n).toList := by
  rw [temporaryName, String.toList_append, String.toList_append, List.mem_append, List.mem_append]
  rintro ((hend | hend) | hend)
  · revert hend
    decide
  · rw [String.toList_ofList] at hend
    cases Number.isDigit_of_mem_toDigits hend
  · revert hend
    decide

/-- Records are stored at paths that are not cut off. -/
theorem store_ne_pathWithEnd {d : Disk} {p : Path} (hp : '\x00' ∉ p.text.toList) (keyText : String)
    (content : ByteArray) :
    (d.store p (fileName keyText) temporaryName content).1 ≠ .error .pathWithEnd := by
  obtain ⟨n, hn⟩ := Disk.freeName_eq (d.names p) temporaryName (d.names p).length 0
  have htemporary := Path.end_not_mem_child hp (end_not_mem_temporaryName n)
  have htarget := Path.end_not_mem_child hp (end_not_mem_fileName keyText)
  have htaken : (d.takeAll (Disk.replacing (p.child (temporaryName n))
      (p.child (fileName keyText)) content)).1 ≠ .error .pathWithEnd := by
    apply Disk.takeAll_ne_pathWithEnd
    simp [Disk.replacing, FileStep.paths, htemporary, htarget]
  rw [Disk.store]
  simp only [hn]
  split
  · simp
  · next fault after htake =>
      rw [htake] at htaken
      exact htaken

end RecordDirectory

/-! ## Writing values -/

section

variable {σ K V : Type} [DecidableEq K] [Keyed V K] [KeyedMap σ K V]

/-- Whether a map in a sound state holds entries, each under its own key, and every fitting value
that is written comes to be among them, or else its writing fails for a reason that lies in the
files and they stay as they were. Whether it fails is as expected of the value. -/
structure KeepsEntries (IsSound : σ → Prop) (entries : σ → Entries K V) (Fits : V → Prop)
    (Expected : V → Bool → Prop) : Prop where
  value? : ∀ s key, KeyedMap.value? s key = (entries s).value? key
  values : ∀ s, KeyedMap.values s = (entries s).values
  sound : ∀ {s}, IsSound s → (entries s).IsSound
  add : ∀ {s v}, IsSound s → Fits v → (KeyedMap.add v).Ends s fun result after => IsSound after ∧
    ((result = .ok () ∧ Expected v true ∧ entries after = (entries s).put (Keyed.key v) v) ∨
      ∃ fault, result = .error fault ∧ fault.isFileFault = true ∧ Expected v false ∧
        entries after = entries s)

end

/-- Entries in memory take every value that is not refused. -/
theorem MemoryMap.keepsEntries {K V : Type} [DecidableEq K] [Keyed V K] (refused : K → Bool) :
    KeepsEntries (fun m : MemoryMap K V => m.entries.IsSound ∧ m.addRefused = refused)
      MemoryMap.entries (fun _ => True) fun v written => written = !refused (Keyed.key v) where
  value? _ _ := rfl
  values _ := rfl
  sound h := h.1
  add := by
    rintro m v ⟨h, rfl⟩ -
    refine ends_current_bind.mpr ?_
    split
    · next hrefused =>
        exact ends_throw_bind.mpr ⟨⟨h, rfl⟩, .inr ⟨_, rfl, rfl, by simp [hrefused], rfl⟩⟩
    · next hrefused =>
        exact ends_change.mpr ⟨⟨h.put v, rfl⟩, .inl ⟨rfl, by simp [hrefused], rfl⟩⟩

namespace RecordDirectory

variable {K V : Type} [DecidableEq K] [Record V K]

/-- A value that has a record is added, unless a step on the disk fails. -/
theorem add_isFileFault {r : RecordDirectory V K} {l : Location} {v : V} {text : String}
    (hlies : LiesAt r.disk r.path l) (htext : recordText v = .ok text) :
    (add v).Ends r fun result _ => ∀ fault, result = .error fault → fault.isFileFault = true := by
  have hstore := store_ne_pathWithEnd (d := r.disk) (Disk.locate_eq_ok.mp hlies.located).1
    (Record.keyText V (Keyed.key v)) text.toUTF8
  refine ends_current_bind.mpr ?_
  simp only [htext]
  refine ends_settled_ok_bind.mpr (ends_onDisk_bind ?_ ?_)
  · exact fun _ _ _ => ends_change_bind.mpr (ends_report.mpr nofun)
  · rintro fault d hrun _ ⟨⟩
    rw [hrun] at hstore
    cases fault with
    | pathWithEnd => exact absurd rfl hstore
    | _ => rfl

/-- A record directory takes every value that has a record, unless a step on the disk fails. -/
theorem keepsEntries (p : Path) :
    KeepsEntries (IsSoundAt p : RecordDirectory V K → Prop) RecordDirectory.entries
      (fun v => ∃ text, recordText v = .ok text) fun _ _ => True where
  value? _ _ := rfl
  values _ := rfl
  sound h := h.entries
  add := by
    rintro r v h ⟨text, htext⟩
    obtain ⟨rfl, ⟨l, hlies⟩, hsound⟩ := h
    refine ((add_ends hlies v).and (add_isFileFault hlies htext)).mono ?_
    rintro result after ⟨⟨hafter, ⟨hok, hedited⟩ | ⟨fault, hresult, huntouched⟩⟩, hkind⟩
    · refine ⟨⟨hedited.path, ⟨l, hedited.path ▸ hafter⟩, ?_⟩, .inl ⟨hok, trivial, hedited.entries⟩⟩
      rw [hedited.entries]
      exact hsound.put v
    · exact ⟨IsSoundAt.untouched ⟨rfl, ⟨l, hlies⟩, hsound⟩ hafter huntouched,
        .inr ⟨fault, hresult, hkind fault hresult, trivial, huntouched.entries⟩⟩

end RecordDirectory

/-! ## Watching -/

/-- A map with the values that were to be written into it, in order, and whether they were. -/
structure Watched (σ V : Type) where
  map : σ
  attempts : List (V × Bool)

namespace Watched

variable {σ K V : Type} [KeyedMap σ K V]

def onMap (op : Operation σ α) : Operation (Watched σ V) α :=
  Operation.within Watched.map (fun map w => { w with map }) op

def add (v : V) : Operation (Watched σ V) Unit := do
  let result ← (onMap (KeyedMap.add v)).outcome
  Operation.change fun w => { w with attempts := w.attempts ++ [(v, result.toOption.isSome)] }
  Operation.settled result

instance : KeyedMap (Watched σ V) K V where
  value? w := KeyedMap.value? w.map
  values w := KeyedMap.values w.map
  add := add
  remove key := onMap (KeyedMap.remove key)
  removeSame v := onMap (KeyedMap.removeSame v)

/-! What is done to a watched map can be told from what is done to the map itself. -/

section

variable {α β : Type}

/-- Whether an operation on a watched map does to the map what another does, and ends like it. -/
def Shows (op : Operation (Watched σ V) α) (plain : Operation σ α) : Prop :=
  ∀ w events, plain ⟨w.map, events⟩ =
    ((op ⟨w, events⟩).1, ⟨(op ⟨w, events⟩).2.state.map, (op ⟨w, events⟩).2.events⟩)

theorem shows_pure (a : α) :
    Shows (pure a : Operation (Watched σ V) α) (pure a : Operation σ α) :=
  fun _ _ => rfl

theorem shows_report (e : Event) :
    Shows (report e : Operation (Watched σ V) Unit) (report e : Operation σ Unit) :=
  fun _ _ => rfl

theorem shows_settled (result : Except Failure α) :
    Shows (settled result : Operation (Watched σ V) α) (settled result : Operation σ α) := by
  cases result <;> exact fun _ _ => rfl

theorem shows_current_bind {next : Watched σ V → Operation (Watched σ V) β}
    {plainNext : σ → Operation σ β} (hnext : ∀ w, Shows (next w) (plainNext w.map)) :
    Shows (current >>= next) (current >>= plainNext) :=
  fun w events => hnext w w events

variable {op : Operation (Watched σ V) α} {plain : Operation σ α}

theorem shows_outcome (h : Shows op plain) : Shows op.outcome plain.outcome := by
  intro w events
  change (Except.ok (plain ⟨w.map, events⟩).1, (plain ⟨w.map, events⟩).2) = _
  rw [h w events]
  rfl

theorem shows_bind {next : α → Operation (Watched σ V) β} {plainNext : α → Operation σ β}
    (h : Shows op plain) (hnext : ∀ a, Shows (next a) (plainNext a)) :
    Shows (op >>= next) (plain >>= plainNext) := by
  intro w events
  have hplain := h w events
  rcases hrun : op ⟨w, events⟩ with ⟨result, after, more⟩
  rw [hrun] at hplain
  cases result with
  | ok a =>
      rw [bind_apply_of_ok hrun, bind_apply_of_ok hplain]
      exact hnext a after more
  | error fault => rw [bind_apply_of_error hrun, bind_apply_of_error hplain]

end

variable {w : Watched σ V} {v : V}

theorem add_apply (v : V) (w : Watched σ V) (events : List Event) :
    (KeyedMap.add v : Operation (Watched σ V) Unit) ⟨w, events⟩ =
      ((KeyedMap.add v ⟨w.map, events⟩).1,
        ⟨⟨(KeyedMap.add v ⟨w.map, events⟩).2.state, w.attempts ++
          [(v, (KeyedMap.add v ⟨w.map, events⟩).1.toOption.isSome)]⟩,
        (KeyedMap.add v ⟨w.map, events⟩).2.events⟩) := by
  rcases hrun : (KeyedMap.add v : Operation σ Unit) ⟨w.map, events⟩ with ⟨result, after⟩
  have honMap : (onMap (KeyedMap.add v) : Operation (Watched σ V) Unit).outcome ⟨w, events⟩ =
      (.ok result, ⟨{ w with map := after.state }, after.events⟩) := by
    simp only [outcome, onMap, within, hrun]
  change add v ⟨w, events⟩ = _
  rw [add, bind_apply_of_ok honMap]
  cases result <;> rfl

theorem shows_add (v : V) : Shows (KeyedMap.add v : Operation (Watched σ V) Unit)
    (KeyedMap.add v : Operation σ Unit) := by
  intro w events
  rw [add_apply]
  rfl

/-- What is known of a map when a value is written is so for the map that is watched. -/
theorem ends_add {post : Except Failure Unit → σ → Prop} (h : (KeyedMap.add v).Ends w.map post) :
    (KeyedMap.add v).Ends w fun result after => post result after.map ∧
      after.attempts = w.attempts ++ [(v, result.toOption.isSome)] := by
  intro events
  rw [add_apply]
  exact ⟨h events, rfl⟩

end Watched

end LinkShelf
