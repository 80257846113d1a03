import LinkShelf.Proofs.Storage.Edits
import LinkShelf.Proofs.Storage.EqualEntries

/-!
What is relied on in a keyed map: a change is made to one key alone, or it fails and everything is
as it was. Entries in memory are such a map (`MemoryMap.reliable`), and so is a record directory
(`RecordDirectory.reliable`).
-/

namespace LinkShelf

open Operation

section

variable {σ K V : Type} [DecidableEq K] [Keyed V K] [KeyedMap σ K V]

/-- Whether a value was put under its key, and all other keys have what they had. -/
def IsPut (v : V) (s after : σ) : Prop :=
  ∀ key, KeyedMap.value? after key = if key = Keyed.key v then some v else KeyedMap.value? s key

/-- Whether a key has no value, and all other keys have what they had. -/
def IsTaken (key : K) (s after : σ) : Prop :=
  ∀ other, KeyedMap.value? after other = if other = key then none else KeyedMap.value? s other

/-- Whether each change of a map in a sound state is made to one key, and keeps the state sound, or
fails and leaves the state the same. -/
structure Reliable (IsSound : σ → Prop) (Same : σ → σ → Prop) : Prop where
  keyed : ∀ {s key v}, IsSound s → KeyedMap.value? s key = some v → Keyed.key v = key
  refl : ∀ s, Same s s
  same : ∀ {s after}, Same s after → ∀ key, KeyedMap.value? after key = KeyedMap.value? s key
  add : ∀ {s v}, IsSound s → (KeyedMap.add v).Ends s fun result after => IsSound after ∧
    ((result = .ok () ∧ IsPut v s after) ∨ ∃ fault, result = .error fault ∧ Same s after)
  remove : ∀ {s key}, IsSound s → (KeyedMap.remove key).Ends s fun result after => IsSound after ∧
    ((result = .ok (KeyedMap.value? s key) ∧ IsTaken key s after) ∨
      ∃ fault, result = .error fault ∧ Same s after)
  removeSame : ∀ {s v}, IsSound s → (KeyedMap.removeSame v).Ends s fun result after =>
    IsSound after ∧
      ((result = .ok none ∧ after = s) ∨
        (∃ found, result = .ok (some found) ∧
          KeyedMap.value? s (Keyed.key found) = some found ∧ IsTaken (Keyed.key found) s after) ∨
        ∃ fault, result = .error fault ∧ Same s after)

end

section

variable {K V : Type} [DecidableEq K] {entries : Entries K V} {key : K} {v : V}

theorem Entries.value?_put_eq_ite (entries : Entries K V) (key : K) (v : V) (other : K) :
    (entries.put key v).value? other = if other = key then some v else entries.value? other := by
  by_cases hother : other = key
  · rw [if_pos hother, hother, value?_put_self]
  · rw [if_neg hother, value?_put_other entries v (Ne.symm hother)]

theorem Entries.value?_drop_eq_ite (entries : Entries K V) (key other : K) :
    (entries.drop key).value? other = if other = key then none else entries.value? other := by
  by_cases hother : other = key
  · rw [if_pos hother, hother, value?_drop_self]
  · rw [if_neg hother, value?_drop_other entries (Ne.symm hother)]

variable [Keyed V K]

/-- Whether each value is under its own key, and no key is there twice. -/
structure Entries.IsSound (entries : Entries K V) : Prop where
  keyed : ∀ e ∈ entries, Keyed.key e.2 = e.1
  distinct : (keys entries).Nodup

theorem Entries.IsSound.put (h : IsSound entries) (v : V) :
    IsSound (entries.put (Keyed.key v) v) := by
  constructor
  · intro e he
    rcases mem_put h.distinct he with rfl | ⟨hold, -⟩
    · rfl
    · exact h.keyed e hold
  · exact nodup_keys_put h.distinct

theorem Entries.IsSound.drop (h : IsSound entries) (key : K) : IsSound (entries.drop key) :=
  ⟨fun e he => h.keyed e (mem_drop.mp he).1, nodup_keys_drop h.distinct⟩

theorem Entries.IsSound.key_eq (h : IsSound entries) (hv : entries.value? key = some v) :
    Keyed.key v = key :=
  h.keyed _ (mem_of_value?_eq_some hv)

end

namespace MemoryMap

variable {K V : Type} [DecidableEq K] [Keyed V K]

theorem isSound_ofValues (values : List V) : (ofValues values).entries.IsSound := by
  have hfold : ∀ entries : Entries K V, entries.IsSound →
      (values.foldl (fun entries v => entries.put (Keyed.key v) v) entries).IsSound := by
    induction values with
    | nil => exact fun entries h => h
    | cons v rest ih => exact fun entries h => ih _ (h.put v)
  exact hfold [] ⟨by simp, List.nodup_nil⟩

/-- Values with distinct keys stay in their order. -/
theorem values_ofValues {values : List V} (hdistinct : (values.map Keyed.key).Nodup) :
    (ofValues values : MemoryMap K V).entries.values = values := by
  have hfold : ∀ entries : Entries K V, (Entries.keys entries ++ values.map Keyed.key).Nodup →
      (values.foldl (fun entries v => entries.put (Keyed.key v) v) entries).values =
        entries.values ++ values := by
    clear hdistinct
    induction values with
    | nil => simp
    | cons v rest ih =>
        intro entries hdistinct
        have hnew : Keyed.key v ∉ Entries.keys entries := fun hmem =>
          (List.nodup_append.mp hdistinct).2.2 _ hmem _ (by simp) rfl
        have hrest : (Entries.keys (entries ++ [(Keyed.key v, v)]) ++ rest.map Keyed.key).Nodup := by
          simpa [Entries.keys] using hdistinct
        rw [List.foldl_cons, Entries.put_of_not_mem hnew, ih _ hrest]
        simp [Entries.values]
  exact hfold [] hdistinct

theorem reliable :
    Reliable (fun m : MemoryMap K V => m.entries.IsSound) (fun m after => after = m) where
  keyed h hv := h.key_eq hv
  refl _ := rfl
  same := by
    rintro m after rfl key
    rfl
  add := by
    intro m v h
    refine ends_current_bind.mpr ?_
    split
    · exact ends_throw_bind.mpr ⟨h, .inr ⟨_, rfl, rfl⟩⟩
    · exact ends_change.mpr ⟨h.put v, .inl ⟨rfl, Entries.value?_put_eq_ite m.entries _ v⟩⟩
  remove := by
    intro m key h
    refine ends_current_bind.mpr ?_
    split
    · exact ends_throw_bind.mpr ⟨h, .inr ⟨_, rfl, rfl⟩⟩
    · exact ends_change_bind.mpr (ends_pure.mpr
        ⟨h.drop key, .inl ⟨rfl, Entries.value?_drop_eq_ite m.entries key⟩⟩)
  removeSame := by
    intro m v h
    refine ends_current_bind.mpr ?_
    split
    · exact ends_pure.mpr ⟨h, .inl ⟨rfl, rfl⟩⟩
    · next key found hfound =>
        have hmem := List.mem_of_find?_eq_some hfound
        have hkey : Keyed.key found = key := h.keyed _ hmem
        refine ends_change_bind.mpr (ends_pure.mpr ⟨h.drop key, .inr (.inl ⟨found, rfl, ?_, ?_⟩)⟩)
        · rw [hkey]
          exact (Entries.value?_eq_some_iff h.distinct).mpr hmem
        · rw [hkey]
          exact Entries.value?_drop_eq_ite m.entries key

end MemoryMap

namespace RecordDirectory

variable {K V : Type} [DecidableEq K] [Record V K] {p : Path} {r : RecordDirectory V K}

/-- Whether the directory of a map is at a path, and its values are under their own keys. -/
structure IsSoundAt (p : Path) (r : RecordDirectory V K) : Prop where
  path : r.path = p
  lies : ∃ l, LiesAt r.disk p l
  entries : r.entries.IsSound

omit [DecidableEq K] in
theorem IsSoundAt.untouched (h : IsSoundAt p r) {after : RecordDirectory V K} {l : Location}
    (hlies : LiesAt after.disk after.path l) (huntouched : Untouched r after) :
    IsSoundAt p after := by
  obtain ⟨hpath, hentries, -⟩ := huntouched
  have hp := hpath.trans h.path
  exact ⟨hp, ⟨l, hp ▸ hlies⟩, hentries ▸ h.entries⟩

omit [DecidableEq K] in
theorem IsSoundAt.refusing (h : IsSoundAt p r) (refusal? : FileStep → Option String) :
    IsSoundAt p { r with disk := { r.disk with refusal? } } := by
  obtain ⟨hpath, ⟨l, hlies⟩, hentries⟩ := h
  exact ⟨hpath, ⟨l, hlies.located, hlies.directory⟩, hentries⟩

theorem IsSoundAt.remove (h : IsSoundAt p r) (key : K) :
    (RecordDirectory.remove key).Ends r fun result after => IsSoundAt p after ∧
      ((result = .ok (r.entries.value? key) ∧ IsTaken key r after) ∨
        ∃ fault, result = .error fault ∧ Untouched r after) := by
  obtain ⟨rfl, ⟨l, hlies⟩, hsound⟩ := h
  refine (remove_ends hlies key).mono ?_
  rintro result after ⟨hafter, ⟨hok, hedited⟩ | ⟨fault, hfault, huntouched⟩⟩
  · split at hedited
    · refine ⟨⟨hedited.path, ⟨l, hedited.path ▸ hafter⟩, ?_⟩, .inl ⟨hok, ?_⟩⟩
      · rw [hedited.entries]
        exact hsound.drop key
      · intro other
        change after.entries.value? other = _
        rw [hedited.entries]
        exact Entries.value?_drop_eq_ite r.entries key other
    · next habsent =>
        rw [hedited]
        refine ⟨⟨rfl, ⟨l, hlies⟩, hsound⟩, .inl ⟨hok, ?_⟩⟩
        intro other
        split
        · next hother =>
            rw [hother]
            exact Option.not_isSome_iff_eq_none.mp habsent
        · rfl
  · exact ⟨IsSoundAt.untouched ⟨rfl, ⟨l, hlies⟩, hsound⟩ hafter huntouched,
      .inr ⟨fault, hfault, huntouched⟩⟩

theorem IsSoundAt.removeSame (h : IsSoundAt p r) (v : V) :
    (RecordDirectory.removeSame v).Ends r fun result after => IsSoundAt p after ∧
      ((result = .ok none ∧ after = r) ∨
        (∃ found, result = .ok (some found) ∧
          r.entries.value? (Keyed.key found) = some found ∧ IsTaken (Keyed.key found) r after) ∨
        ∃ fault, result = .error fault ∧ Untouched r after) := by
  refine ends_current_bind.mpr ?_
  cases hkey : keyOfSame? r.entries v with
  | none => exact ends_pure.mpr ⟨h, .inl ⟨rfl, rfl⟩⟩
  | some key =>
      obtain ⟨front, ⟨k, found⟩, back, hentries, rfl, -⟩ :=
        exists_of_keyOfSame?_eq_some h.entries.distinct hkey
      have hfound : r.entries.value? k = some found :=
        (Entries.value?_eq_some_iff h.entries.distinct).mpr (by simp [hentries])
      obtain rfl := h.entries.key_eq hfound
      refine (h.remove _).mono ?_
      rintro result after ⟨hafter, ⟨hok, htaken⟩ | hfault⟩
      · exact ⟨hafter, .inr (.inl ⟨found, hok.trans (by rw [hfound]), hfound, htaken⟩)⟩
      · exact ⟨hafter, .inr (.inr hfault)⟩

theorem reliable (p : Path) :
    Reliable (IsSoundAt p : RecordDirectory V K → Prop) Untouched where
  keyed h hv := h.entries.key_eq hv
  refl _ := ⟨rfl, rfl, .refl⟩
  same := by
    intro r after huntouched key
    change after.entries.value? key = _
    rw [huntouched.entries]
    rfl
  add := by
    rintro r v ⟨rfl, ⟨l, hlies⟩, hsound⟩
    refine (add_ends hlies v).mono ?_
    rintro result after ⟨hafter, ⟨hok, hedited⟩ | ⟨fault, hfault, huntouched⟩⟩
    · refine ⟨⟨hedited.path, ⟨l, hedited.path ▸ hafter⟩, ?_⟩, .inl ⟨hok, ?_⟩⟩
      · rw [hedited.entries]
        exact hsound.put v
      · intro other
        change after.entries.value? other = _
        rw [hedited.entries]
        exact Entries.value?_put_eq_ite r.entries _ v other
    · exact ⟨IsSoundAt.untouched ⟨rfl, ⟨l, hlies⟩, hsound⟩ hafter huntouched,
        .inr ⟨fault, hfault, huntouched⟩⟩
  remove h := h.remove _
  removeSame h := h.removeSame _

theorem load_isSoundAt (d : Disk) (p : Path) (keyName : String) :
    (load p keyName : Operation Disk (RecordDirectory V K)).Ends d fun result after =>
      (∀ r, result = .ok r → IsSoundAt p r) ∧
        ((∃ l, LiesAt d p l) → ∃ l, LiesAt after p l) := by
  refine (load_ends_of_made d p keyName).mono ?_
  rintro result after (⟨made, hmake, hopening⟩ | ⟨fault, hmake, rfl⟩)
  · obtain ⟨l, hlocated, hdirectory⟩ := Disk.exists_of_makeDirectories_eq_ok hmake
    refine ⟨?_, fun _ => ⟨l, hopening.after ▸ ⟨hlocated, hdirectory⟩⟩⟩
    rintro r rfl
    rcases hopening.outcome with ⟨entries, hok, -, hdistinct, hvalues⟩ | ⟨_, -, -, _, hfault, -⟩
    · cases hok
      refine ⟨rfl, ⟨l, hlocated, hdirectory⟩, ?_, hdistinct⟩
      rintro ⟨key, v⟩ he
      have hheld := (hvalues key).symm.trans ((Entries.value?_eq_some_iff hdistinct).mpr he)
      obtain ⟨n, -, hkey, -⟩ := (lastHeld?_eq_some (inOrder_records made p)).mp hheld
      exact hkey
    · cases hfault
  · refine ⟨nofun, ?_⟩
    rintro ⟨l, hlies⟩
    cases (Disk.makeDirectories_of_isDirectory hlies.located hlies.directory).symm.trans hmake

end RecordDirectory

end LinkShelf
