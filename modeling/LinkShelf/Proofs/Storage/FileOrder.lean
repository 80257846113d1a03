import LinkShelf.Proofs.Storage.Interruption
import LinkShelf.Proofs.Storage.Reliable

/-!
The order of the values of a record directory. It is the order of the names of their files when the
directory is opened (`load_ends_inFileOrder`), and one change keeps it exactly if a key that comes
in has a name after those of all keys that are there (`inFileOrder_iff_comesLast`). Main statement:
after any calls, whichever of their writes fail, the values have the order that they have when the
directory is opened again exactly if it is that of the names (`IsServed.values_eq_iff`).
-/

namespace LinkShelf.RecordDirectory

open Operation Entries

variable {V K : Type} [Record V K]

/-! ## Entries -/

/-- Whether entries are in the order of the names of their files. -/
def InFileOrder (entries : Entries K V) : Prop :=
  (keys entries).Pairwise fun key other => nameOf V key < nameOf V other

/-- Whether the keys that some entries have and others before them had not are the last ones by the
names of their files. -/
def ComesLast (before edited : Entries K V) : Prop :=
  ∀ key ∈ keys edited, key ∉ keys before → ∀ other ∈ keys before, nameOf V other < nameOf V key

variable {entries more before edited : Entries K V} {key : K} {v : V}

theorem InFileOrder.distinct (h : InFileOrder entries) : (keys entries).Nodup :=
  h.imp fun hlt heq => (heq ▸ hlt).ne rfl

/-- There is one such order. -/
theorem InFileOrder.eq_of_perm (h : InFileOrder entries) (hmore : InFileOrder more)
    (hperm : more.Perm entries) : more = entries := by
  have hpairs : ∀ {entries : Entries K V}, InFileOrder entries →
      entries.Pairwise fun e f => nameOf V e.1 < nameOf V f.1 := by
    intro entries h
    rwa [InFileOrder, keys, List.pairwise_map] at h
  refine hperm.eq_of_pairwise ?_ (hpairs hmore) (hpairs h)
  intro e f _ _ hef hfe
  exact absurd hef (not_lt.mpr hfe.le)

/-- Values that are under their own keys say what the entries are. -/
theorem eq_of_values (h : IsSound entries) (hmore : IsSound more)
    (hvalues : entries.values = more.values) : entries = more := by
  have hkeyed : ∀ {entries : Entries K V}, IsSound entries →
      entries.values.map (fun v => (Keyed.key v, v)) = entries := by
    intro entries h
    rw [values, List.map_map]
    conv_rhs => rw [← List.map_id entries]
    exact List.map_congr_left fun e he => Prod.ext (h.keyed e he) rfl
  rw [← hkeyed h, hvalues, hkeyed hmore]

section

variable [DecidableEq K]

theorem InFileOrder.drop (h : InFileOrder entries) (key : K) : InFileOrder (entries.drop key) :=
  List.Pairwise.sublist (List.filter_sublist.map _) h

/-- A value that takes the place of another one is where that was; a new one is the last. -/
theorem InFileOrder.put_iff (h : InFileOrder entries) :
    InFileOrder (entries.put key v) ↔
      (key ∉ keys entries → ∀ other ∈ keys entries, nameOf V other < nameOf V key) := by
  by_cases hkey : key ∈ keys entries
  · rw [InFileOrder, keys_put_of_mem hkey]
    exact iff_of_true h fun hnew => absurd hkey hnew
  · have hkeys : keys (entries.put key v) = keys entries ++ [key] := by
      rw [put_of_not_mem hkey, keys, List.map_append]
      rfl
    rw [InFileOrder, hkeys, List.pairwise_append]
    simp only [hkey, not_false_eq_true, forall_const, List.mem_singleton, forall_eq]
    exact ⟨fun hall => hall.2.2, fun hlast => ⟨h, List.pairwise_singleton _ _, hlast⟩⟩

omit [Record V K] in
theorem mem_keys_put (entries : Entries K V) (key : K) (v : V) {other : K} :
    other ∈ keys (entries.put key v) ↔ other ∈ keys entries ∨ other = key := by
  by_cases hkey : key ∈ keys entries
  · rw [keys_put_of_mem hkey]
    exact ⟨.inl, fun h => h.elim id fun heq => heq ▸ hkey⟩
  · rw [put_of_not_mem hkey]
    simp [keys]

/-- Whether entries are others with at most one changed: a value was put under its key, or what was
under a key was taken away. -/
def IsEditOf (before edited : Entries K V) : Prop :=
  edited = before ∨ (∃ v, edited = before.put (Keyed.key v) v) ∨ ∃ key, edited = before.drop key

theorem IsEditOf.isSound (hedit : IsEditOf before edited) (h : before.IsSound) :
    edited.IsSound := by
  obtain rfl | ⟨v, rfl⟩ | ⟨key, rfl⟩ := hedit
  · exact h
  · exact h.put v
  · exact h.drop key

/-- One change keeps the order exactly if what it puts in comes last. -/
theorem inFileOrder_iff_comesLast (hedit : IsEditOf before edited) (h : InFileOrder before) :
    InFileOrder edited ↔ ComesLast before edited := by
  obtain rfl | ⟨v, rfl⟩ | ⟨key, rfl⟩ := hedit
  · exact iff_of_true h fun key hkey hnew => absurd hkey hnew
  · rw [h.put_iff, ComesLast]
    constructor
    · intro hlast key hkey hnew
      obtain hold | rfl := (mem_keys_put before _ v).mp hkey
      · exact absurd hold hnew
      · exact hlast hnew
    · exact fun hlast hnew => hlast _ ((mem_keys_put before _ v).mpr (.inr rfl)) hnew
  · refine iff_of_true (h.drop key) fun other hother hnew => ?_
    exact absurd ((List.filter_sublist.map _).subset hother) hnew

/-- Entries that are changed one at a time are in order all the time exactly if all that comes in
comes last. -/
theorem forall_inFileOrder_iff {states : Nat → Entries K V} (h : InFileOrder (states 0))
    (hedits : ∀ n, IsEditOf (states n) (states (n + 1))) :
    (∀ n, InFileOrder (states n)) ↔ ∀ n, ComesLast (states n) (states (n + 1)) := by
  constructor
  · exact fun hall n => (inFileOrder_iff_comesLast (hedits n) (hall n)).mp (hall (n + 1))
  · intro hlast n
    induction n with
    | zero => exact h
    | succ n ih => exact (inFileOrder_iff_comesLast (hedits n) ih).mpr (hlast n)

end

/-! ## Opening -/

/-- Whether the record files of a directory have the names of their keys, which are among the used
ones. -/
def NamesKeys (V : Type) {K : Type} [Record V K] (used : K → Prop) (d : Disk) (p : Path) : Prop :=
  ∀ f ∈ records V d p, f.1 = nameOf V (Keyed.key f.2) ∧ used (Keyed.key f.2)

variable [DecidableEq K] {used : K → Prop} {d : Disk} {p : Path}
  (hapart : ∀ k m, used k → used m → nameOf V k = nameOf V m → k = m)

include hapart

/-- Files are read in the order of their names. A name that comes twice is that of one key. -/
theorem readAll_ends_inFileOrder {names : List String} (hsorted : names.Pairwise (· ≤ ·))
    (hnamed : ∀ name ∈ names, ∀ v : V, readRecord d (p.child name) = .ok v →
      name = nameOf V (Keyed.key v) ∧ used (Keyed.key v))
    (hentries : InFileOrder entries)
    (hbefore : ∀ key ∈ keys entries, used key ∧ ∀ name ∈ names, nameOf V key ≤ name) :
    (readAll p names entries).Ends d fun result _ =>
      ∀ found, result = .ok found → InFileOrder found := by
  induction names generalizing entries with
  | nil => exact ends_pure.mpr fun found hfound => Except.ok.inj hfound ▸ hentries
  | cons name rest ih =>
      obtain ⟨hfirst, hrest⟩ := List.pairwise_cons.mp hsorted
      have hrest' : ∀ other ∈ rest, ∀ v : V, readRecord d (p.child other) = .ok v →
          other = nameOf V (Keyed.key v) ∧ used (Keyed.key v) :=
        fun other hother => hnamed other (List.mem_cons_of_mem name hother)
      refine ends_current_bind.mpr ?_
      cases hread : readRecord (V := V) d (p.child name) with
      | ok v =>
          obtain ⟨hname, hused⟩ := hnamed name List.mem_cons_self v hread
          have hput : InFileOrder (entries.put (Keyed.key v) v) := by
            refine hentries.put_iff.mpr fun hnew other hother => ?_
            obtain ⟨hother', hle⟩ := hbefore other hother
            refine lt_of_le_of_ne (hname ▸ hle name List.mem_cons_self) fun heq => hnew ?_
            exact hapart other _ hother' hused heq ▸ hother
          have hnext := ih hrest hrest' hput fun other hother => by
            obtain hold | rfl := (mem_keys_put entries _ v).mp hother
            · exact ⟨(hbefore other hold).1, fun n hn =>
                (hbefore other hold).2 n (List.mem_cons_of_mem name hn)⟩
            · exact ⟨hused, fun n hn => hname ▸ hfirst n hn⟩
          dsimp only
          split
          · exact ends_report_bind hnext
          · exact hnext
      | error fault =>
          dsimp only
          split
          · exact ends_report_bind (ih hrest hrest' hentries fun other hother =>
              ⟨(hbefore other hother).1, fun n hn =>
                (hbefore other hother).2 n (List.mem_cons_of_mem name hn)⟩)
          · exact fun _ => nofun

/-- A directory whose files have the names of their keys is opened in the order of these names. -/
theorem load_ends_inFileOrder (d : Disk) (p : Path) (keyName : String) :
    (load p keyName : Operation Disk (RecordDirectory V K)).Ends d fun result _ =>
      ∀ r, result = .ok r → NamesKeys V used r.disk p → InFileOrder r.entries := by
  have hread (made : Disk) : (readAll p (recordNames made p) ([] : Entries K V)).Ends made
      fun result after => after = made ∧
        (NamesKeys V used made p → ∀ found, result = .ok found → InFileOrder found) := by
    refine (readAll_ends (recordNames made p) []).and ?_ |>.mono
      fun result after hends => ⟨hends.1.1, hends.2⟩
    intro events hnamed
    refine readAll_ends_inFileOrder hapart (pairwise_recordNames made p) ?_ ?_ ?_ events
    · exact fun name hname v hread => hnamed (name, v) (mem_records_iff_mem.mpr ⟨hname, hread⟩)
    · exact List.Pairwise.nil
    · nofun
  have hmade : (Disk.attempt (Disk.makeDirectories p)).Ends d fun _ _ => True := fun _ => trivial
  refine ends_bind hmade ?_ fun _ _ _ => nofun
  rintro u made -
  refine ends_current_bind.mpr (ends_bind (hread made) ?_ fun _ _ _ => nofun)
  rintro entries after ⟨rfl, horder⟩
  refine ends_report_bind (ends_current_bind.mpr (ends_pure.mpr ?_))
  rintro r ⟨⟩ hnamed
  exact horder hnamed entries rfl

omit hapart

/-! ## Calls -/

/-- A change that is asked of a map. -/
inductive Change (V K : Type) where
  | add (v : V)
  | remove (key : K)
  | removeSame (v : V)

def Change.perform : Change V K → Operation (RecordDirectory V K) Unit
  | .add v => RecordDirectory.add v
  | .remove key => do
    let _ ← RecordDirectory.remove key
    return ()
  | .removeSame v => do
    let _ ← RecordDirectory.removeSame v
    return ()

/-- A change that is asked for, and the reasons for which the device refuses what is done to files
meanwhile. -/
structure Call (V K : Type) where
  change : Change V K
  refusal? : FileStep → Option String

/-- The map after a call, which may have failed. -/
def Call.after (call : Call V K) (r : RecordDirectory V K) : RecordDirectory V K :=
  (call.change.perform.execute
    { r with disk := { r.disk with refusal? := call.refusal? } }).2.state

def afterCalls (calls : List (Call V K)) (r : RecordDirectory V K) : RecordDirectory V K :=
  calls.foldl (fun r call => call.after r) r

theorem afterCalls_append (calls more : List (Call V K)) (r : RecordDirectory V K) :
    afterCalls (calls ++ more) r = afterCalls more (afterCalls calls r) :=
  List.foldl_append

/-- A map that was opened where the record files have the names of their keys, and calls that put in
values that are read back from their files, while no two keys share a file. -/
structure IsServed (used : K → Prop) (opened : RecordDirectory V K) (calls : List (Call V K)) :
    Prop where
  loaded : ∃ d keyName, ((load opened.path keyName).execute d).1 = .ok opened
  named : NamesKeys V used opened.disk opened.path
  apart : ∀ k m, used k → used m → nameOf V k = nameOf V m → k = m
  added : ∀ call ∈ calls, ∀ v, call.change = .add v → Lossless v ∧ used (Keyed.key v)

/-- Whether a map is what opening the directory of another one gives, and holds the same. -/
structure Reopens (r fresh : RecordDirectory V K) : Prop where
  loaded : ∃ keyName, ((load r.path keyName).execute r.disk).1 = .ok fresh
  values : ∀ key, fresh.entries.value? key = r.entries.value? key

variable {l : Location} {r opened fresh : RecordDirectory V K} {calls : List (Call V K)}

section

variable (hapart : ∀ k m, used k → used m → nameOf V k = nameOf V m → k = m)

include hapart

theorem Change.ends (h : IsSettled used l r) (change : Change V K)
    (hadded : ∀ v, change = .add v → Lossless v ∧ used (Keyed.key v)) :
    change.perform.Ends r fun _ after => IsSettled used l after ∧ after.path = r.path ∧
      IsEditOf r.entries after.entries := by
  have hremove : ∀ key, (RecordDirectory.remove key).Ends r fun _ after =>
      IsSettled used l after ∧ after.path = r.path ∧ IsEditOf r.entries after.entries := by
    intro key
    refine ((h.remove_settles key).and (remove_ends h.lies key)).mono ?_
    rintro result after ⟨⟨hafter, hok⟩, -, ⟨hresult, -⟩ | ⟨fault, -, huntouched⟩⟩
    · obtain ⟨hpath, hentries⟩ := hok _ hresult
      exact ⟨hafter, hpath, .inr (.inr ⟨key, hentries⟩)⟩
    · exact ⟨hafter, huntouched.path, .inl huntouched.entries⟩
  have hgiven : ∀ {taking : Operation (RecordDirectory V K) (Option V)},
      (taking.Ends r fun _ after => IsSettled used l after ∧ after.path = r.path ∧
        IsEditOf r.entries after.entries) →
      (taking >>= fun _ => pure ()).Ends r fun (_ : Except Failure Unit) after =>
        IsSettled used l after ∧ after.path = r.path ∧ IsEditOf r.entries after.entries :=
    fun htaking =>
      ends_bind htaking (fun _ _ hafter => ends_pure.mpr hafter) fun _ _ hafter => hafter
  cases change with
  | add v =>
      obtain ⟨hlossless, hused⟩ := hadded v rfl
      refine ((h.add_settles hapart hlossless hused).and (add_ends h.lies v)).mono ?_
      rintro result after ⟨⟨hafter, hok⟩, -, ⟨hresult, -⟩ | ⟨fault, -, huntouched⟩⟩
      · obtain ⟨hpath, hentries⟩ := hok hresult
        exact ⟨hafter, hpath, .inr (.inl ⟨v, hentries⟩)⟩
      · exact ⟨hafter, huntouched.path, .inl huntouched.entries⟩
  | remove key => exact hgiven (hremove key)
  | removeSame v =>
      refine hgiven (ends_current_bind.mpr ?_)
      cases keyOfSame? r.entries v with
      | none => exact ends_pure.mpr ⟨h, rfl, .inl rfl⟩
      | some key => exact hremove key

theorem Call.after_spec (h : IsSettled used l r) {call : Call V K}
    (hadded : ∀ v, call.change = .add v → Lossless v ∧ used (Keyed.key v)) :
    IsSettled used l (call.after r) ∧ (call.after r).path = r.path ∧
      IsEditOf r.entries (call.after r).entries := by
  have hrefusing : IsSettled used l { r with disk := { r.disk with refusal? := call.refusal? } } :=
    h.of_untouched ⟨h.lies.located, h.lies.directory⟩ ⟨rfl, rfl, rfl, fun _ _ => rfl⟩
  exact (Change.ends hapart hrefusing call.change hadded).execute

theorem afterCalls_spec (h : IsSettled used l r)
    (hadded : ∀ call ∈ calls, ∀ v, call.change = .add v → Lossless v ∧ used (Keyed.key v))
    (hsound : r.entries.IsSound) :
    IsSettled used l (afterCalls calls r) ∧ (afterCalls calls r).path = r.path ∧
      (afterCalls calls r).entries.IsSound := by
  induction calls generalizing r with
  | nil => exact ⟨h, rfl, hsound⟩
  | cons call rest ih =>
      obtain ⟨hfirst, hrest⟩ := List.forall_mem_cons.mp hadded
      obtain ⟨hafter, hpath, hedit⟩ := Call.after_spec hapart h hfirst
      obtain ⟨hlast, hlastPath, hlastSound⟩ := ih hafter hrest (hedit.isSound hsound)
      exact ⟨hlast, hlastPath.trans hpath, hlastSound⟩

end

namespace IsServed

theorem isSound (h : IsServed used opened calls) : opened.entries.IsSound := by
  obtain ⟨d, keyName, hload⟩ := h.loaded
  exact ((load_isSoundAt d opened.path keyName).execute.1 opened hload).entries

theorem exists_isSettled (h : IsServed used opened calls) : ∃ l, IsSettled used l opened := by
  obtain ⟨d, keyName, hload⟩ := h.loaded
  obtain ⟨-, l, hopened⟩ := isOpened_of_load hload
  exact ⟨l, hopened, fun f hf => (h.named f hf).1, fun f hf => (h.named f hf).2⟩

theorem isSoundAt (h : IsServed used opened calls) :
    IsSoundAt opened.path (afterCalls calls opened) := by
  obtain ⟨l, hsettled⟩ := h.exists_isSettled
  obtain ⟨hafter, hpath, hsound⟩ := afterCalls_spec h.apart hsettled h.added h.isSound
  exact ⟨hpath, ⟨l, hpath ▸ hafter.lies⟩, hsound⟩

theorem take (h : IsServed used opened calls) (n : Nat) :
    IsServed used opened (calls.take n) :=
  ⟨h.loaded, h.named, h.apart, fun call hcall => h.added call (List.mem_of_mem_take hcall)⟩

theorem inFileOrder (h : IsServed used opened calls) : InFileOrder opened.entries := by
  obtain ⟨d, keyName, hload⟩ := h.loaded
  exact (load_ends_inFileOrder h.apart d opened.path keyName).execute opened hload h.named

/-- Each call changes one entry at most. -/
theorem isEditOf (h : IsServed used opened calls) (n : Nat) :
    IsEditOf (afterCalls (calls.take n) opened).entries
      (afterCalls (calls.take (n + 1)) opened).entries := by
  rw [List.take_add_one]
  cases hcall : calls[n]? with
  | none =>
      rw [Option.toList_none, List.append_nil]
      exact .inl rfl
  | some call =>
      obtain ⟨l, hsettled⟩ := h.exists_isSettled
      have hbefore := (afterCalls_spec h.apart hsettled (h.take n).added h.isSound).1
      rw [Option.toList_some, afterCalls_append]
      exact (Call.after_spec h.apart hbefore (h.added call (List.mem_of_getElem? hcall))).2.2

/-- The directory can be opened again, and then gives what is in memory. -/
theorem exists_reopens (h : IsServed used opened calls) (keyName : String) :
    ∃ fresh, ((load opened.path keyName).execute (afterCalls calls opened).disk).1 = .ok fresh ∧
      Reopens (afterCalls calls opened) fresh := by
  obtain ⟨l, hsettled⟩ := h.exists_isSettled
  obtain ⟨hafter, hpath, -⟩ := afterCalls_spec h.apart hsettled h.added h.isSound
  obtain ⟨fresh, hfresh, hvalues⟩ := hafter.opensAs keyName
  exact ⟨fresh, hpath ▸ hfresh, ⟨keyName, hfresh⟩, hvalues⟩

theorem inFileOrder_of_reopens (h : IsServed used opened calls)
    (hfresh : Reopens (afterCalls calls opened) fresh) : InFileOrder fresh.entries := by
  obtain ⟨l, hsettled⟩ := h.exists_isSettled
  obtain ⟨hafter, -⟩ := afterCalls_spec h.apart hsettled h.added h.isSound
  obtain ⟨keyName, hload⟩ := hfresh.loaded
  have hdisk : fresh.disk = (afterCalls calls opened).disk := by
    rcases (load_ends (V := V) hafter.lies keyName).execute.outcome with
      ⟨entries, hok, -⟩ | ⟨_, -, -, fault, hfault, -⟩
    · cases hok.symm.trans hload
      rfl
    · cases hfault.symm.trans hload
  refine (load_ends_inFileOrder h.apart _ _ keyName).execute fresh hload ?_
  rw [hdisk]
  exact fun f hf => ⟨hafter.named f hf, hafter.used f hf⟩

/-- The values have the order that they have when the directory is opened again exactly if it is
that of the names of the files. -/
theorem values_eq_iff (h : IsServed used opened calls)
    (hfresh : Reopens (afterCalls calls opened) fresh) :
    KeyedMap.values (afterCalls calls opened) = KeyedMap.values fresh ↔
      InFileOrder (afterCalls calls opened).entries := by
  obtain ⟨l, hsettled⟩ := h.exists_isSettled
  obtain ⟨-, -, hsound⟩ := afterCalls_spec h.apart hsettled h.added h.isSound
  have horder := h.inFileOrder_of_reopens hfresh
  have hperm := Entries.perm_of_value?_eq hsound.distinct horder.distinct hfresh.values
  constructor
  · intro hvalues
    obtain ⟨keyName, hload⟩ := hfresh.loaded
    have hfreshSound := ((load_isSoundAt _ _ keyName).execute.1 fresh hload).entries
    rwa [eq_of_values hsound hfreshSound hvalues]
  · intro hserved
    show (afterCalls calls opened).entries.values = fresh.entries.values
    rw [horder.eq_of_perm hserved hperm.symm]

end IsServed

end LinkShelf.RecordDirectory
