import LinkShelf.Storage.Entries
import Mathlib.Data.List.Nodup
import Mathlib.Data.List.Perm.Basic

/-!
Entries with distinct keys: what is among them, and what is under a key, after a change.
-/

namespace LinkShelf.Entries

variable {K V : Type} [DecidableEq K] {entries other : Entries K V} {key : K} {v : V}

/-- The keys of some entries, in order. -/
def keys (entries : Entries K V) : List K := entries.map (·.1)

theorem keys_put_of_mem (hkey : key ∈ keys entries) : keys (entries.put key v) = keys entries := by
  induction entries with
  | nil => simp [keys] at hkey
  | cons e rest ih =>
      obtain ⟨k, w⟩ := e
      by_cases hk : k = key
      · simp [put, keys, hk]
      · have hrest : key ∈ keys rest := by simpa [keys, Ne.symm hk] using hkey
        have hput := ih hrest
        rw [keys] at hput ⊢
        simp only [put, hk, if_false, List.map_cons, hput]
        rfl

theorem put_of_not_mem (hkey : key ∉ keys entries) : entries.put key v = entries ++ [(key, v)] := by
  induction entries with
  | nil => rfl
  | cons e rest ih =>
      obtain ⟨k, w⟩ := e
      obtain ⟨hk, hrest⟩ : key ≠ k ∧ key ∉ keys rest := by simpa [keys] using hkey
      rw [put, if_neg hk.symm, ih hrest]
      rfl

theorem mem_put (hdistinct : (keys entries).Nodup) {e : K × V} (he : e ∈ entries.put key v) :
    e = (key, v) ∨ (e ∈ entries ∧ e.1 ≠ key) := by
  induction entries with
  | nil => exact .inl (by simpa [put] using he)
  | cons first rest ih =>
      obtain ⟨k, w⟩ := first
      obtain ⟨hfirst, hrest⟩ : k ∉ keys rest ∧ (keys rest).Nodup := by
        simpa [keys] using hdistinct
      by_cases hk : k = key
      · rw [put, if_pos hk, List.mem_cons] at he
        rcases he with rfl | he
        · exact .inl rfl
        · refine .inr ⟨by simp [he], ?_⟩
          rintro rfl
          exact hfirst (hk ▸ List.mem_map_of_mem he)
      · rw [put, if_neg hk, List.mem_cons] at he
        rcases he with rfl | he
        · exact .inr ⟨by simp, hk⟩
        · rcases ih hrest he with rfl | ⟨hmem, hne⟩
          · exact .inl rfl
          · exact .inr ⟨by simp [hmem], hne⟩

theorem nodup_keys_put (hdistinct : (keys entries).Nodup) : (keys (entries.put key v)).Nodup := by
  by_cases hkey : key ∈ keys entries
  · rwa [keys_put_of_mem hkey]
  · rw [put_of_not_mem hkey, keys, List.map_append]
    exact hdistinct.append (by simp) (by simpa [keys] using hkey)

theorem nodup_keys_drop (hdistinct : (keys entries).Nodup) : (keys (entries.drop key)).Nodup :=
  hdistinct.sublist (List.filter_sublist.map _)

theorem mem_drop {e : K × V} : e ∈ entries.drop key ↔ e ∈ entries ∧ e.1 ≠ key := by
  simp [drop]

theorem drop_of_value?_eq_none (hv : entries.value? key = none) : entries.drop key = entries := by
  refine List.filter_eq_self.mpr ?_
  induction entries with
  | nil => simp
  | cons e rest ih =>
      obtain ⟨k, w⟩ := e
      by_cases hk : k = key
      · simp [value?, hk] at hv
      · rw [value?, if_neg hk] at hv
        simpa [hk] using ih hv

theorem mem_of_value?_eq_some (hv : entries.value? key = some v) : (key, v) ∈ entries := by
  induction entries with
  | nil => simp [value?] at hv
  | cons e rest ih =>
      obtain ⟨k, w⟩ := e
      by_cases hk : k = key
      · rw [value?, if_pos hk] at hv
        simp [hk, Option.some.inj hv]
      · rw [value?, if_neg hk] at hv
        simp [ih hv]

theorem value?_eq_some_iff (hdistinct : (keys entries).Nodup) :
    entries.value? key = some v ↔ (key, v) ∈ entries := by
  refine ⟨mem_of_value?_eq_some, ?_⟩
  intro hmem
  induction entries with
  | nil => simp at hmem
  | cons e rest ih =>
      obtain ⟨k, w⟩ := e
      obtain ⟨hfirst, hrest⟩ : k ∉ keys rest ∧ (keys rest).Nodup := by
        simpa [keys] using hdistinct
      rcases List.mem_cons.mp hmem with heq | hmem
      · cases heq
        simp [value?]
      · have hk : k ≠ key := by
          rintro rfl
          exact hfirst (List.mem_map_of_mem (f := (·.1)) hmem)
        rw [value?, if_neg hk]
        exact ih hrest hmem

section

variable {front back : Entries K V} {e : K × V}

omit [DecidableEq K] in
theorem not_mem_keys_of_split (hdistinct : (keys (front ++ e :: back)).Nodup) :
    e.1 ∉ keys front ∧ e.1 ∉ keys back := by
  simp only [keys, List.map_append, List.map_cons] at hdistinct ⊢
  have hmiddle := (List.nodup_middle.mp hdistinct).notMem
  simpa using hmiddle

theorem value?_of_split (hdistinct : (keys (front ++ e :: back)).Nodup) :
    value? (front ++ e :: back) e.1 = some e.2 :=
  (value?_eq_some_iff hdistinct).mpr (by simp)

theorem drop_of_not_mem (hkey : key ∉ keys entries) : entries.drop key = entries := by
  refine List.filter_eq_self.mpr fun other hother => ?_
  have hne : other.1 ≠ key := fun hsame => hkey (hsame ▸ List.mem_map_of_mem hother)
  simpa using hne

theorem drop_of_split (hdistinct : (keys (front ++ e :: back)).Nodup) :
    drop (front ++ e :: back) e.1 = front ++ back := by
  obtain ⟨hfront, hback⟩ := not_mem_keys_of_split hdistinct
  rw [drop, List.filter_append, List.filter_cons_of_neg (by simp)]
  exact congrArg₂ (· ++ ·) (drop_of_not_mem hfront) (drop_of_not_mem hback)

/-- A value takes the place of the one under its key. -/
theorem put_of_split (hdistinct : (keys (front ++ e :: back)).Nodup) (v : V) :
    put (front ++ e :: back) e.1 v = front ++ (e.1, v) :: back := by
  have hfront := (not_mem_keys_of_split hdistinct).1
  clear hdistinct
  induction front with
  | nil => simp [put]
  | cons other front ih =>
      obtain ⟨hother, hmore⟩ : e.1 ≠ other.1 ∧ e.1 ∉ keys front := by simpa [keys] using hfront
      rw [List.cons_append, put, if_neg hother.symm, ih hmore]
      rfl

end

/-- The order of entries does not matter to what is under a key. -/
theorem value?_of_perm (hdistinct : (keys entries).Nodup) (hperm : other.Perm entries) :
    other.value? key = entries.value? key := by
  have hother : (keys other).Nodup := (hperm.map _).nodup_iff.mpr hdistinct
  ext v
  rw [value?_eq_some_iff hother, value?_eq_some_iff hdistinct, hperm.mem_iff]

/-- Entries that have the same under every key differ in their order alone. -/
theorem perm_of_value?_eq (hdistinct : (keys entries).Nodup) (hother : (keys other).Nodup)
    (hvalues : ∀ key, other.value? key = entries.value? key) : other.Perm entries := by
  refine (List.perm_ext_iff_of_nodup hother.of_map hdistinct.of_map).mpr ?_
  rintro ⟨key, v⟩
  rw [← value?_eq_some_iff hother, ← value?_eq_some_iff hdistinct, hvalues]

end LinkShelf.Entries
