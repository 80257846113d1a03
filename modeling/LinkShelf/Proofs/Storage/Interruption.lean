import LinkShelf.Proofs.Storage.Edits

/-!
Interrupted edits. The steps of an edit, which are those that it takes where nothing interrupts it
(`add_leaves`, `remove_leaves`), are taken up to some point, and the directory that they leave is
opened. Main statement: if the record files of a directory have the names of their keys, then it is
opened as before the edit or as after it (`IsSettled.interrupted_add`,
`IsSettled.interrupted_remove`); and when a value is added and then another one removed, one of the
two is there at any point (`IsSettled.interrupted_replace`).
-/

namespace LinkShelf.RecordDirectory

open Operation

variable {V K : Type} [Record V K]

/-! ## Steps -/

/-- The steps that put a file into a directory, by way of the `m`th temporary file. -/
def putting (p : Path) (m : Nat) (name : String) (pieces : List ByteArray) : List FileStep :=
  Disk.storing (p.child (temporaryName m)) (p.child name) pieces

/-- Whether a disk is left from another one by steps that are interrupted: some of them are taken,
up to one that fails at the most, and after that the temporary file may be gone. -/
def LeftBy (p : Path) (m : Nat) (steps : List FileStep) (d after : Disk) : Prop :=
  ∃ n, after = (d.takeAll (steps.take n)).2 ∨
    after = ((d.takeAll (steps.take n)).2.take (.unlink (p.child (temporaryName m)))).2

section

variable {d after : Disk} {p : Path} {l : Location} {m : Nat} {name : String}
  {pieces : List ByteArray} {content : ByteArray}

theorem LeftBy.append {steps : List FileStep} (h : LeftBy p m steps d after)
    (more : List FileStep) : LeftBy p m (steps ++ more) d after := by
  obtain ⟨n, hn⟩ := h
  refine ⟨min n steps.length, ?_⟩
  rwa [List.take_append_of_le_length (min_le_right n steps.length), ← List.take_eq_take_min]

theorem leftBy_takeAll {steps : List FileStep} (htaken : d.takeAll steps = (.ok (), after))
    (more : List FileStep) : LeftBy p m (steps ++ more) d (after.takeAll more).2 := by
  refine ⟨(steps ++ more).length, .inl ?_⟩
  rw [List.take_length, Disk.takeAll_append, htaken]

theorem leftBy_store (d : Disk) (p : Path) (name : String) (content : ByteArray) :
    ∃ m, LeftBy p m (putting p m name [content]) d (d.store p name temporaryName content).2 ∧
      ∀ stored, d.store p name temporaryName content = (.ok (), stored) →
        d.takeAll (putting p m name [content]) = (.ok (), stored) := by
  obtain ⟨m, hm⟩ := Disk.freeName_eq (d.names p) temporaryName (d.names p).length 0
  have hsteps : Disk.replacing (p.child (temporaryName m)) (p.child name) content =
      putting p m name [content] := rfl
  have hall : (putting p m name [content]).take 3 = putting p m name [content] := rfl
  simp only [Disk.store, hm, hsteps]
  rcases htaken : d.takeAll (putting p m name [content]) with ⟨fault | u, left⟩
  · refine ⟨m, ⟨3, .inr (by rw [hall, htaken])⟩, ?_⟩
    intro stored hstored
    cases hstored
  · refine ⟨m, ⟨3, .inl (by rw [hall, htaken])⟩, ?_⟩
    intro stored hstored
    exact htaken.trans hstored

theorem takeAll_unlink (d : Disk) (p : Path) :
    (d.takeAll [.unlink p]).2 = (d.discard p).2 := by
  rw [Disk.takeAll, Disk.discard]
  rcases d.take (.unlink p) with ⟨fault | u, left⟩
  · cases fault <;> rfl
  · rfl

theorem SameFiles.trans {mid : Disk} (h : SameFiles p d mid) (h' : SameFiles p mid after) :
    SameFiles p d after :=
  ⟨h'.names.trans h.names, fun n hn => (h'.bytes n hn).trans (h.bytes n hn)⟩

theorem LiesAt.takeAll_putting (h : LiesAt d p l) (hname : isRecordName name = true)
    (hpieces : pieces.foldl (· ++ ·) .empty = content) :
    ∃ left, LiesAt left p l ∧
      ((d.takeAll (putting p m name pieces) = (.ok (), left) ∧
          Rewritten p name (some content) d left) ∨
        ∃ fault, d.takeAll (putting p m name pieces) = (.error fault, left) ∧
          SameFiles p d left) := by
  rcases Disk.takeAll_storing h.located (isRecordName_temporaryName m) (temporaryName_ne_up m)
      (ne_up_of_isRecordName hname) hpieces with
    ⟨left, htaken, hchild, hfile, hagree⟩ | ⟨fault, left, htaken, hagree⟩
  · obtain ⟨hplace, hput⟩ := h.put content hname hchild hfile
    exact ⟨left, hplace.of_agree hagree,
      .inl ⟨htaken, hput.trans_same (hplace.sameFiles hagree)⟩⟩
  · exact ⟨left, h.of_agree hagree, .inr ⟨fault, htaken, h.sameFiles hagree⟩⟩

theorem LiesAt.takeAll_putting_take (h : LiesAt d p l) (hname : isRecordName name = true)
    (hpieces : pieces.foldl (· ++ ·) .empty = content) (n : Nat) :
    LiesAt (d.takeAll ((putting p m name pieces).take n)).2 p l ∧
      (SameFiles p d (d.takeAll ((putting p m name pieces).take n)).2 ∨
        Rewritten p name (some content) d (d.takeAll ((putting p m name pieces).take n)).2) := by
  -- of all steps only the last one, which moves the file to its name, shows
  by_cases hn : n ≤ pieces.length + 1
  · have hagree : Disk.Agree isRecordName l d (d.takeAll ((putting p m name pieces).take n)).2 :=
      Disk.agree_takeAll_storing_take h.located (isRecordName_temporaryName m)
        (temporaryName_ne_up m) hn
    exact ⟨h.of_agree hagree, .inl (h.sameFiles hagree)⟩
  · have hall : (putting p m name pieces).take n = putting p m name pieces := by
      apply List.take_of_length_le
      simp only [putting, Disk.storing, List.length_append, List.length_cons, List.length_map,
        List.length_nil]
      omega
    rw [hall]
    obtain ⟨left, hlies, ⟨htaken, hput⟩ | ⟨fault, htaken, hsame⟩⟩ :=
      h.takeAll_putting (m := m) hname hpieces
    · rw [htaken]
      exact ⟨hlies, .inr hput⟩
    · rw [htaken]
      exact ⟨hlies, .inl hsame⟩

theorem LiesAt.takeAll_unlink_take (h : LiesAt d p l) (hname : isRecordName name = true) (n : Nat) :
    LiesAt (d.takeAll ([.unlink (p.child name)].take n)).2 p l ∧
      (SameFiles p d (d.takeAll ([.unlink (p.child name)].take n)).2 ∨
        Rewritten p name none d (d.takeAll ([.unlink (p.child name)].take n)).2) := by
  cases n with
  | zero => exact ⟨h, .inl .refl⟩
  | succ n =>
      rw [List.take_succ_cons, List.take_nil, Disk.takeAll]
      rcases Disk.take_cases (.unlink (p.child name)) d with
        ⟨fault, htake⟩ | ⟨files, hfiles, htake⟩
      · rw [htake]
        exact ⟨h, .inl .refl⟩
      · obtain ⟨k, removed, hk, hnode, rfl⟩ := Disk.filesAfter_unlink hfiles
        obtain ⟨rfl, -⟩ := Disk.locate_child (ne_up_of_isRecordName hname) h.located hk
        obtain ⟨hlies, hdropped⟩ := h.drop hname (by simp [FileSystem.isDirectory, hnode])
        rw [htake]
        exact ⟨hlies, .inr hdropped⟩

theorem LiesAt.leftBy_cases {steps : List FileStep} (hleft : LeftBy p m steps d after)
    (htaken : ∀ n, LiesAt (d.takeAll (steps.take n)).2 p l) :
    ∃ n, LiesAt after p l ∧ SameFiles p (d.takeAll (steps.take n)).2 after := by
  obtain ⟨n, rfl | rfl⟩ := hleft
  · exact ⟨n, htaken n, .refl⟩
  · have hagree := Disk.agree_unlink (htaken n).located (isRecordName_temporaryName m)
      (temporaryName_ne_up m)
    exact ⟨n, (htaken n).of_agree hagree, (htaken n).sameFiles hagree⟩

theorem LiesAt.leftBy_putting (h : LiesAt d p l) (hname : isRecordName name = true)
    (hpieces : pieces.foldl (· ++ ·) .empty = content)
    (hleft : LeftBy p m (putting p m name pieces) d after) :
    LiesAt after p l ∧ (SameFiles p d after ∨ Rewritten p name (some content) d after) := by
  have htaken := h.takeAll_putting_take (m := m) hname hpieces
  obtain ⟨n, hlies, hsame⟩ := leftBy_cases hleft fun n => (htaken n).1
  refine ⟨hlies, ?_⟩
  rcases (htaken n).2 with hbefore | hput
  · exact .inl (hbefore.trans hsame)
  · exact .inr (hput.trans_same hsame)

/-- If one file is put into a directory and another one taken out of it after that, then the second
is touched only where the first one is there. -/
theorem LiesAt.leftBy_putting_unlink {old : String} (h : LiesAt d p l)
    (hname : isRecordName name = true) (hold : isRecordName old = true)
    (hpieces : pieces.foldl (· ++ ·) .empty = content)
    (hleft : LeftBy p m (putting p m name pieces ++ [FileStep.unlink (p.child old)]) d after) :
    LiesAt after p l ∧ (SameFiles p d after ∨ Rewritten p name (some content) d after ∨
      ∃ mid, LiesAt mid p l ∧ Rewritten p name (some content) d mid ∧
        Rewritten p old none mid after) := by
  have htaken : ∀ n, ∃ left,
      (d.takeAll ((putting p m name pieces ++ [FileStep.unlink (p.child old)]).take n)).2 = left ∧
      LiesAt left p l ∧ (SameFiles p d left ∨ Rewritten p name (some content) d left ∨
        ∃ mid, LiesAt mid p l ∧ Rewritten p name (some content) d mid ∧
          Rewritten p old none mid left) := by
    intro n
    refine ⟨_, rfl, ?_⟩
    rw [List.take_append]
    by_cases hn : n < (putting p m name pieces).length
    · rw [Nat.sub_eq_zero_of_le hn.le, List.take_zero, List.append_nil]
      obtain ⟨hlies, hsame | hput⟩ := h.takeAll_putting_take (m := m) hname hpieces n
      · exact ⟨hlies, .inl hsame⟩
      · exact ⟨hlies, .inr (.inl hput)⟩
    -- the removal is reached where all steps before it have succeeded
    · rw [List.take_of_length_le (not_lt.mp hn), Disk.takeAll_append]
      obtain ⟨mid, hmid, ⟨hall, hput⟩ | ⟨fault, hall, hsame⟩⟩ :=
        h.takeAll_putting (m := m) hname hpieces
      · rw [hall]
        obtain ⟨hlies, hsame | hdropped⟩ :=
          hmid.takeAll_unlink_take hold (n - (putting p m name pieces).length)
        · exact ⟨hlies, .inr (.inl (hput.trans_same hsame))⟩
        · exact ⟨hlies, .inr (.inr ⟨mid, hmid, hput, hdropped⟩)⟩
      · rw [hall]
        exact ⟨hmid, .inl hsame⟩
  obtain ⟨n, hlies, hsame⟩ := leftBy_cases hleft fun n => by
    obtain ⟨left, rfl, hlies, -⟩ := htaken n
    exact hlies
  refine ⟨hlies, ?_⟩
  obtain ⟨left, rfl, -, hbefore | hput | ⟨mid, hmid, hput, hdropped⟩⟩ := htaken n
  · exact .inl (hbefore.trans hsame)
  · exact .inr (.inl (hput.trans_same hsame))
  · exact .inr (.inr ⟨mid, hmid, hput, hdropped.trans_same hsame⟩)

end

/-! ## Directories whose files have the names of their keys -/

variable [DecidableEq K] {l : Location} {r after : RecordDirectory V K} {used : K → Prop}
  {entries : Entries K V} {key : K} {v : V}

/-- Whether opening a directory gives some values for keys. -/
def OpensAs (d : Disk) (p : Path) (held : K → Option V) : Prop :=
  ∀ keyName, ∃ fresh : RecordDirectory V K, ((load p keyName).execute d).1 = .ok fresh ∧
    ∀ key, fresh.entries.value? key = held key

/-- Whether a map is as it was opened, and its record files have the names of their keys. -/
structure IsSettled (used : K → Prop) (l : Location) (r : RecordDirectory V K) : Prop
    extends IsOpened l r where
  named : ∀ f ∈ records V r.disk r.path, f.1 = nameOf V (Keyed.key f.2)
  used : ∀ f ∈ records V r.disk r.path, used (Keyed.key f.2)

namespace IsSettled

theorem opensAs (h : IsSettled used l r) : OpensAs r.disk r.path r.entries.value? := by
  intro keyName
  obtain ⟨fresh, hfresh, hvalues⟩ := exists_load_eq_ok h.lies h.handled keyName
  exact ⟨fresh, hfresh, fun key => (hvalues key).trans (h.values key).symm⟩

theorem of_untouched (h : IsSettled used l r) (hlies : LiesAt after.disk after.path l)
    (huntouched : Untouched r after) : IsSettled used l after := by
  obtain ⟨hpath, hentries, hsame⟩ := huntouched
  have hrecords : records V after.disk after.path = records V r.disk r.path := by
    rw [hpath, records_congr hsame]
  refine ⟨⟨hlies, ?_, ?_⟩, ?_, ?_⟩
  · rw [hpath, hsame.names]
    intro name hname
    exact isHandled_congr (hsame.bytes name (isRecordName_of_mem hname)) (h.handled name hname)
  · rw [hentries, hrecords]
    exact h.values
  · rw [hrecords]
    exact h.named
  · rw [hrecords]
    exact h.used

theorem edit (h : IsSettled used l r) (hlies : LiesAt after.disk after.path l)
    (hedited : Edited r key entries after)
    (hframe : ∀ other, other ≠ key → entries.value? other = r.entries.value? other)
    (hkeyed : ∀ v, entries.value? key = some v → Keyed.key v = key ∧ Lossless v ∧ used key)
    (hapart : ∀ f ∈ records V r.disk r.path, nameOf V key = nameOf V (Keyed.key f.2) →
      key = Keyed.key f.2) : IsSettled used l after := by
  have hfollows : Follows (records V r.disk r.path) [key] after :=
    h.follows.edit hedited hframe (fun v hv => (hkeyed v hv).1)
      (fun v hv => (hkeyed v hv).2.1) nofun
  have hsurvives : ∀ other, Survives (records V r.disk r.path) [key]
      (after.entries.value? other) other := by
    intro other
    apply survives_of_named h.named
    intro k hk f hf hname
    rw [List.mem_singleton] at hk
    subst hk
    exact hapart f hf hname
  refine ⟨⟨hlies, hfollows.handled, ?_⟩, ?_, ?_⟩
  · intro other
    exact ((hfollows.lastHeld?_eq_iff (inOrder_records _ _) other).mpr (hsurvives other)).symm
  · rintro ⟨n, w⟩ hf
    rw [hfollows.records] at hf
    split at hf
    · obtain ⟨k, hk, rfl, hw⟩ := hf
      rw [hfollows.keyed k w hw]
    · exact h.named _ hf
  · rintro ⟨n, w⟩ hf
    rw [hfollows.records] at hf
    split at hf
    · obtain ⟨k, hk, rfl, hw⟩ := hf
      rw [List.mem_singleton] at hk
      subst hk
      rw [hedited.entries] at hw
      rw [(hkeyed w hw).1]
      exact (hkeyed w hw).2.2
    · exact h.used _ hf

theorem put (h : IsSettled used l r) (hlies : LiesAt after.disk after.path l)
    (hedited : Edited r (Keyed.key v) (r.entries.put (Keyed.key v) v) after)
    (hapart : ∀ k m, used k → used m → nameOf V k = nameOf V m → k = m)
    (hlossless : Lossless v) (hused : used (Keyed.key v)) : IsSettled used l after := by
  refine h.edit hlies hedited ?_ ?_ ?_
  · intro other hother
    exact Entries.value?_put_other r.entries v (Ne.symm hother)
  · intro w hw
    rw [Entries.value?_put_self] at hw
    rw [← Option.some.inj hw]
    exact ⟨rfl, hlossless, hused⟩
  · intro f hf hname
    exact hapart _ _ hused (h.used f hf) hname

theorem key_eq_of_present (h : IsSettled used l r) (hpresent : (r.entries.value? key).isSome = true)
    {f : String × V} (hf : f ∈ records V r.disk r.path)
    (hname : nameOf V key = nameOf V (Keyed.key f.2)) : key = Keyed.key f.2 := by
  obtain ⟨v, hv⟩ := Option.isSome_iff_exists.mp hpresent
  rw [h.values, lastHeld?_eq_some (inOrder_records _ _)] at hv
  obtain ⟨n, hn, rfl, -⟩ := hv
  obtain ⟨m, w⟩ := f
  obtain rfl : n = m := ((h.named _ hn).trans hname).trans (h.named _ hf).symm
  rw [(inOrder_records _ _).functional n v w hn hf]

theorem drop (h : IsSettled used l r) (hlies : LiesAt after.disk after.path l)
    (hedited : Edited r key (r.entries.drop key) after)
    (hpresent : (r.entries.value? key).isSome = true) : IsSettled used l after := by
  refine h.edit hlies hedited ?_ ?_ ?_
  · intro other hother
    exact Entries.value?_drop_other r.entries (Ne.symm hother)
  · intro w hw
    rw [Entries.value?_drop_self] at hw
    cases hw
  · intro f hf hname
    exact h.key_eq_of_present hpresent hf hname

/-- An `add` leaves a settled map, and the entries that it is to leave if it succeeds. -/
theorem add_settles (h : IsSettled used l r)
    (hapart : ∀ k m, used k → used m → nameOf V k = nameOf V m → k = m)
    (hlossless : Lossless v) (hused : used (Keyed.key v)) :
    (add v).Ends r fun result after => IsSettled used l after ∧
      (result = .ok () → after.path = r.path ∧ after.entries = r.entries.put (Keyed.key v) v) := by
  refine (add_ends h.lies v).mono ?_
  rintro result after ⟨hlies, ⟨-, hedited⟩ | ⟨fault, rfl, huntouched⟩⟩
  · refine ⟨h.put hlies hedited hapart hlossless hused, ?_⟩
    intro _
    exact ⟨hedited.path, hedited.entries⟩
  · exact ⟨h.of_untouched hlies huntouched, nofun⟩

theorem remove_settles (h : IsSettled used l r) (key : K) :
    (remove key).Ends r fun result after => IsSettled used l after ∧
      ∀ removed, result = .ok removed →
        after.path = r.path ∧ after.entries = r.entries.drop key := by
  refine (remove_ends h.lies key).mono ?_
  rintro result after ⟨hlies, ⟨-, hedited⟩ | ⟨fault, rfl, huntouched⟩⟩
  · split at hedited
    · next hpresent =>
        refine ⟨h.drop hlies hedited hpresent, ?_⟩
        intro _ _
        exact ⟨hedited.path, hedited.entries⟩
    · next habsent =>
        rw [hedited]
        have hnone : r.entries.value? key = none := by simpa using habsent
        exact ⟨h, fun _ _ => ⟨rfl, (Entries.drop_of_value?_eq_none hnone).symm⟩⟩
  · refine ⟨h.of_untouched hlies huntouched, ?_⟩
    intro removed hremoved
    cases hremoved

end IsSettled

/-- The maps that come from opening a directory whose record files have the names of their keys, by
edits that succeed or fail while the device refuses one step or another. -/
inductive IsReached (used : K → Prop) : RecordDirectory V K → Prop where
  | opened {d : Disk} {p : Path} {keyName : String} {r : RecordDirectory V K}
      (hload : ((load p keyName).execute d).1 = .ok r)
      (hnamed : ∀ f ∈ records V r.disk r.path, f.1 = nameOf V (Keyed.key f.2))
      (hused : ∀ f ∈ records V r.disk r.path, used (Keyed.key f.2)) : IsReached used r
  | refused {r : RecordDirectory V K} (h : IsReached used r)
      (refusal? : FileStep → Option String) :
      IsReached used { r with disk := { r.disk with refusal? } }
  | edited {r : RecordDirectory V K} (h : IsReached used r) (edit : Edit V K)
      (hedit : ∀ v, edit = .add v → Lossless v ∧ used (Keyed.key v)) :
      IsReached used (edit.perform.execute r).2.state

section

variable (hapart : ∀ k m, used k → used m → nameOf V k = nameOf V m → k = m)

include hapart

theorem IsSettled.perform (h : IsSettled used l r) (edit : Edit V K)
    (hedit : ∀ v, edit = .add v → Lossless v ∧ used (Keyed.key v)) :
    IsSettled used l (edit.perform.execute r).2.state := by
  cases edit with
  | add v =>
      obtain ⟨hlossless, hused⟩ := hedit v rfl
      exact (h.add_settles hapart hlossless hused).execute.1
  | remove key =>
      have hends : (Edit.remove key : Edit V K).perform.Ends r fun _ after =>
          IsSettled used l after :=
        ends_bind (h.remove_settles key) (fun _ _ hafter => ends_pure.mpr hafter.1)
          fun _ _ hafter => hafter.1
      exact hends.execute

theorem IsReached.exists_isSettled (h : IsReached used r) : ∃ l, IsSettled used l r := by
  induction h with
  | opened hload hnamed hused =>
      obtain ⟨-, l, hopened⟩ := isOpened_of_load hload
      exact ⟨l, hopened, hnamed, hused⟩
  | refused _ refusal? ih =>
      obtain ⟨l, h⟩ := ih
      exact ⟨l, h.of_untouched ⟨h.lies.located, h.lies.directory⟩ ⟨rfl, rfl, rfl, fun _ _ => rfl⟩⟩
  | edited _ edit hedit ih =>
      obtain ⟨l, h⟩ := ih
      exact ⟨l, h.perform hapart edit hedit⟩

end

/-! ## Interruption -/

/-- What is left on the disk where an `add` is interrupted. The data may be written in any
pieces. -/
def AddLeaves (r : RecordDirectory V K) (v : V) (left : Disk) : Prop :=
  left = r.disk ∨ ∃ text m pieces, recordText v = .ok text ∧
    pieces.foldl (· ++ ·) .empty = text.toUTF8 ∧
    LeftBy r.path m (putting r.path m (nameOf V (Keyed.key v)) pieces) r.disk left

/-- What is left on the disk where a `remove` is interrupted. -/
def RemoveLeaves (r : RecordDirectory V K) (key : K) (left : Disk) : Prop :=
  left = r.disk ∨ (r.entries.value? key).isSome = true ∧
    left = (r.disk.takeAll [.unlink (r.path.child (nameOf V key))]).2

/-- An `add` that is not interrupted leaves one of these disks too, and takes all of its steps if it
succeeds. -/
theorem add_leaves (r : RecordDirectory V K) (v : V) :
    (add v).Ends r fun result after => after.path = r.path ∧ AddLeaves r v after.disk ∧
      (result = .ok () → ∃ text m, recordText v = .ok text ∧
        r.disk.takeAll (putting r.path m (nameOf V (Keyed.key v)) [text.toUTF8]) =
          (.ok (), after.disk)) := by
  refine ends_current_bind.mpr (ends_settled_bind ?_ ?_)
  · intro text htext
    obtain ⟨m, hleft, hall⟩ :=
      leftBy_store r.disk r.path (nameOf V (Keyed.key v)) text.toUTF8
    refine ends_onDisk_bind ?_ ?_
    · intro u d hrun
      rw [nameOf, hrun] at hleft
      refine ends_change_bind.mpr (ends_report.mpr ⟨rfl, ?_, fun _ => ?_⟩)
      · exact .inr ⟨text, m, _, htext, ByteArray.empty_append, hleft⟩
      · exact ⟨text, m, htext, hall d hrun⟩
    · intro fault d hrun
      rw [nameOf, hrun] at hleft
      exact ⟨rfl, .inr ⟨text, m, _, htext, ByteArray.empty_append, hleft⟩, nofun⟩
  · intro fault _
    exact ⟨rfl, .inl rfl, nofun⟩

theorem remove_leaves (r : RecordDirectory V K) (key : K) :
    (remove key).Ends r fun _ after => RemoveLeaves r key after.disk := by
  refine ends_current_bind.mpr ?_
  cases hv : r.entries.value? key with
  | none => exact ends_pure.mpr (.inl rfl)
  | some v =>
      have hleft : RemoveLeaves r key (r.disk.discard (r.path.child (nameOf V key))).2 := by
        refine .inr ⟨?_, (takeAll_unlink r.disk _).symm⟩
        rw [hv, Option.isSome_some]
      refine ends_onDisk_bind ?_ ?_
      · intro u d hrun
        rw [nameOf, hrun] at hleft
        exact ends_report_bind (ends_change_bind.mpr (ends_pure.mpr hleft))
      · intro fault d hrun
        rw [nameOf, hrun] at hleft
        exact hleft

namespace IsSettled

variable {text : String} {m : Nat} {pieces : List ByteArray} {left : Disk}

theorem opensAs_of_sameFiles (h : IsSettled used l r) (hlies : LiesAt left r.path l)
    (hsame : SameFiles r.path r.disk left) : OpensAs left r.path r.entries.value? := by
  have hbefore : IsSettled used l { r with disk := left } :=
    h.of_untouched hlies ⟨rfl, rfl, hsame⟩
  exact hbefore.opensAs

theorem dropped (h : IsSettled used l r) (hpresent : (r.entries.value? key).isSome = true)
    (hlies : LiesAt left r.path l) (hleft : Rewritten r.path (nameOf V key) none r.disk left) :
    IsSettled used l ⟨left, r.path, r.keyName, r.entries.drop key⟩ :=
  h.drop hlies ⟨rfl, rfl, none, hleft, .inr ⟨Entries.value?_drop_self r.entries key, rfl⟩⟩ hpresent

theorem interrupted_remove (h : IsSettled used l r) (hleft : RemoveLeaves r key left) :
    OpensAs left r.path r.entries.value? ∨ OpensAs left r.path (r.entries.drop key).value? := by
  obtain rfl | ⟨hpresent, rfl⟩ := hleft
  · exact .inl h.opensAs
  · obtain ⟨hlies, hsame | hdropped⟩ :=
      h.lies.takeAll_unlink_take (isRecordName_nameOf (V := V) key) 1
    · exact .inl (h.opensAs_of_sameFiles hlies hsame)
    · exact .inr (h.dropped hpresent hlies hdropped).opensAs

variable (hapart : ∀ k m, used k → used m → nameOf V k = nameOf V m → k = m)
  (hused : used (Keyed.key v)) (hlossless : Lossless v)

include hapart hused hlossless

theorem added (h : IsSettled used l r) (htext : recordText v = .ok text)
    (hlies : LiesAt left r.path l)
    (hleft : Rewritten r.path (nameOf V (Keyed.key v)) (some text.toUTF8) r.disk left) :
    IsSettled used l ⟨left, r.path, r.keyName, r.entries.put (Keyed.key v) v⟩ := by
  refine h.put hlies ⟨rfl, rfl, _, hleft, ?_⟩ hapart hlossless hused
  exact .inl ⟨v, text, Entries.value?_put_self r.entries _ v, htext, rfl⟩

theorem interrupted_add (h : IsSettled used l r) (hleft : AddLeaves r v left) :
    OpensAs left r.path r.entries.value? ∨
      OpensAs left r.path (r.entries.put (Keyed.key v) v).value? := by
  obtain rfl | ⟨text, m, pieces, htext, hpieces, hleft⟩ := hleft
  · exact .inl h.opensAs
  · obtain ⟨hlies, hsame | hput⟩ := h.lies.leftBy_putting (isRecordName_nameOf _) hpieces hleft
    · exact .inl (h.opensAs_of_sameFiles hlies hsame)
    · exact .inr (h.added hapart hused hlossless htext hlies hput).opensAs

/-- Of a value that is added and one that is removed after that, one is there at any point, and all
others are as they were. -/
theorem interrupted_replace {old : K} (h : IsSettled used l r) (hne : Keyed.key v ≠ old)
    (hpresent : (r.entries.value? old).isSome = true) (htext : recordText v = .ok text)
    (hpieces : pieces.foldl (· ++ ·) .empty = text.toUTF8)
    (hleft : LeftBy r.path m (putting r.path m (nameOf V (Keyed.key v)) pieces ++
      [FileStep.unlink (r.path.child (nameOf V old))]) r.disk left) :
    ∃ held, OpensAs left r.path held ∧
      (held old = r.entries.value? old ∨ held (Keyed.key v) = some v) ∧
      ∀ other, other ≠ old → other ≠ Keyed.key v → held other = r.entries.value? other := by
  obtain ⟨hlies, hsame | hput | ⟨mid, hmid, hput, hdropped⟩⟩ :=
    h.lies.leftBy_putting_unlink (isRecordName_nameOf _) (isRecordName_nameOf old) hpieces hleft
  · exact ⟨_, h.opensAs_of_sameFiles hlies hsame, .inl rfl, fun _ _ _ => rfl⟩
  · have hadded := h.added hapart hused hlossless htext hlies hput
    refine ⟨_, hadded.opensAs, .inr (Entries.value?_put_self r.entries _ v), ?_⟩
    intro other _ hother
    exact Entries.value?_put_other r.entries v (Ne.symm hother)
  · have hadded := h.added hapart hused hlossless htext hmid hput
    have hstill : ((r.entries.put (Keyed.key v) v).value? old).isSome = true := by
      rwa [Entries.value?_put_other r.entries v hne]
    refine ⟨_, (hadded.dropped hstill hlies hdropped).opensAs, .inr ?_, ?_⟩
    · rw [Entries.value?_drop_other _ (Ne.symm hne), Entries.value?_put_self]
    · intro other hold hother
      rw [Entries.value?_drop_other _ (Ne.symm hold),
        Entries.value?_put_other r.entries v (Ne.symm hother)]

end IsSettled

end LinkShelf.RecordDirectory
