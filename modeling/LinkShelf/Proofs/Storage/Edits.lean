import LinkShelf.Proofs.Storage.Contents
import LinkShelf.Proofs.Storage.Mirror

/-!
Edits of an open directory, whatever its record files are named. Main statements: an edit is made in
memory and on the disk, or in neither (`add_ends`, `remove_ends`); after any edits that succeed the
files of the edited keys are theirs, and all other files are as they were (`performAll_ends`), which
decides what opening the directory again gives (`Follows.lastHeld?_eq_iff`).
-/

namespace LinkShelf.RecordDirectory

open Operation

variable {V K : Type} [Record V K] [DecidableEq K] {l : Location} {r after : RecordDirectory V K}
  {files : List (String × V)} {edited : List K} {entries : Entries K V} {key : K} {v : V}

/-! ## One edit -/

omit [DecidableEq K] in
theorem SameFiles.refl {p : Path} {d : Disk} : SameFiles p d d := ⟨rfl, fun _ _ => rfl⟩

/-- Whether the entries and the record files of a directory are as they were. -/
structure Untouched (r after : RecordDirectory V K) : Prop where
  path : after.path = r.path
  entries : after.entries = r.entries
  files : SameFiles r.path r.disk after.disk

/-- Whether bytes are the record of a value, or there is neither. -/
def Holds (content? : Option ByteArray) (now : Option V) : Prop :=
  (∃ v text, now = some v ∧ recordText v = .ok text ∧ content? = some text.toUTF8) ∨
    now = none ∧ content? = none

/-- Whether a directory has other entries afterwards, and the file of a key is written or taken away
as its entry is. -/
structure Edited (r : RecordDirectory V K) (key : K) (now : Entries K V)
    (after : RecordDirectory V K) : Prop where
  path : after.path = r.path
  entries : after.entries = now
  files : ∃ content?, Rewritten r.path (nameOf V key) content? r.disk after.disk ∧
    Holds content? (now.value? key)

theorem add_ends (h : LiesAt r.disk r.path l) (v : V) :
    (add v).Ends r fun result after => LiesAt after.disk after.path l ∧
      ((result = .ok () ∧ Edited r (Keyed.key v) (r.entries.put (Keyed.key v) v) after) ∨
        ∃ fault, result = .error fault ∧ Untouched r after) := by
  refine ends_current_bind.mpr (ends_settled_bind ?_ ?_)
  · intro text htext
    obtain ⟨stored, hlies, houtcome⟩ := h.store (Record.keyText V (Keyed.key v)) text.toUTF8
    refine ends_onDisk_bind ?_ ?_
    · intro u d hrun
      rcases houtcome with ⟨hstore, hfiles⟩ | ⟨fault, hstore, -⟩
      · cases hstore.symm.trans hrun
        refine ends_change_bind.mpr (ends_report.mpr ⟨hlies, .inl ⟨rfl, rfl, rfl, _, hfiles, ?_⟩⟩)
        exact .inl ⟨v, text, Entries.value?_put_self r.entries _ v, htext, rfl⟩
      · cases hstore.symm.trans hrun
    · intro fault d hrun
      rcases houtcome with ⟨hstore, -⟩ | ⟨fault, hstore, hfiles⟩
      · cases hstore.symm.trans hrun
      · cases hstore.symm.trans hrun
        exact ⟨hlies, .inr ⟨_, rfl, rfl, rfl, hfiles⟩⟩
  · intro fault _
    exact ⟨h, .inr ⟨fault, rfl, rfl, rfl, .refl⟩⟩

theorem remove_ends (h : LiesAt r.disk r.path l) (key : K) :
    (remove key).Ends r fun result after => LiesAt after.disk after.path l ∧
      ((result = .ok (r.entries.value? key) ∧
          if (r.entries.value? key).isSome then Edited r key (r.entries.drop key) after
          else after = r) ∨
        ∃ fault, result = .error fault ∧ Untouched r after) := by
  refine ends_current_bind.mpr ?_
  cases hv : r.entries.value? key with
  | none => exact ends_pure.mpr ⟨h, .inl ⟨rfl, rfl⟩⟩
  | some v =>
      have houtcome := h.discard (Record.keyText V key)
      refine ends_onDisk_bind ?_ ?_
      · intro u d hrun
        rcases houtcome with ⟨dropped, hdiscard, hlies, hfiles⟩ | ⟨fault, hdiscard⟩
        · cases hdiscard.symm.trans hrun
          refine ends_report_bind (ends_change_bind.mpr
            (ends_pure.mpr ⟨hlies, .inl ⟨rfl, rfl, rfl, none, hfiles, ?_⟩⟩))
          exact .inr ⟨Entries.value?_drop_self r.entries key, rfl⟩
        · cases hdiscard.symm.trans hrun
      · intro fault d hrun
        rcases houtcome with ⟨dropped, hdiscard, -⟩ | ⟨fault, hdiscard⟩
        · cases hdiscard.symm.trans hrun
        · cases hdiscard.symm.trans hrun
          exact ⟨h, .inr ⟨_, rfl, rfl, rfl, .refl⟩⟩

/-! ## Several edits -/

def Lossless (v : V) : Prop :=
  ∀ text, recordText v = .ok text → valueOfBytes text.toUTF8 = .ok v

inductive Edit (V K : Type) where
  | add (v : V)
  | remove (key : K)

def Edit.perform : Edit V K → Operation (RecordDirectory V K) Unit
  | .add v => RecordDirectory.add v
  | .remove key => do
    let _ ← RecordDirectory.remove key
    pure ()

def performAll (edits : List (Edit V K)) : Operation (RecordDirectory V K) Unit :=
  edits.forM Edit.perform

def Edit.applied (entries : Entries K V) : Edit V K → Entries K V
  | .add v => entries.put (Keyed.key v) v
  | .remove key => entries.drop key

/-- The key that an edit puts a value under or takes one away from. A key that has no value is not
edited by being removed. -/
def Edit.keys (entries : Entries K V) : Edit V K → List K
  | .add v => [Keyed.key v]
  | .remove key => if (entries.value? key).isSome then [key] else []

def editedKeys : Entries K V → List (Edit V K) → List K
  | _, [] => []
  | entries, edit :: rest => edit.keys entries ++ editedKeys (edit.applied entries) rest

/-- How the record files of a directory go on from some files after edits to some keys: those of the
edited keys hold what is in memory, all others what they held. -/
structure Follows (files : List (String × V)) (edited : List K) (r : RecordDirectory V K) :
    Prop where
  handled : ∀ n ∈ recordNames r.disk r.path, IsHandled V r.disk r.path n
  records : ∀ n v, (n, v) ∈ records V r.disk r.path ↔
    if n ∈ edited.map (nameOf V) then
      ∃ key ∈ edited, nameOf V key = n ∧ r.entries.value? key = some v
    else (n, v) ∈ files
  unedited : ∀ key, key ∉ edited → r.entries.value? key = lastHeld? files key
  keyed : ∀ key v, r.entries.value? key = some v → Keyed.key v = key

theorem IsOpened.follows (h : IsOpened l r) : Follows (records V r.disk r.path) [] r := by
  refine ⟨h.handled, by simp, fun key _ => h.values key, ?_⟩
  intro key v hv
  rw [h.values, lastHeld?_eq_some (inOrder_records _ _)] at hv
  obtain ⟨n, -, hkey, -⟩ := hv
  exact hkey

theorem Follows.edit (h : Follows files edited r) (hedited : Edited r key entries after)
    (hframe : ∀ other, other ≠ key → entries.value? other = r.entries.value? other)
    (hkeyed : ∀ v, entries.value? key = some v → Keyed.key v = key)
    (hlossless : ∀ v, entries.value? key = some v → Lossless v)
    (hapart : ∀ other ∈ edited, nameOf V other = nameOf V key → other = key) :
    Follows files (edited ++ [key]) after := by
  obtain ⟨hpath, hentries, content?, hfiles, hholds⟩ := hedited
  have hheld : ∀ w : V, (∃ content, content? = some content ∧ valueOfBytes content = .ok w) ↔
      entries.value? key = some w := by
    intro w
    rcases hholds with ⟨v, text, hv, htext, rfl⟩ | ⟨hnone, rfl⟩
    · rw [hv, Option.some.injEq]
      constructor
      · rintro ⟨content, hcontent, hw⟩
        cases hcontent
        rw [hlossless v hv text htext] at hw
        exact Except.ok.inj hw
      · rintro rfl
        exact ⟨_, rfl, hlossless v hv text htext⟩
    · simp [hnone]
  constructor
  · rw [hpath]
    refine isHandled_of_rewritten hfiles ?_ h.handled
    intro content hcontent
    rcases hholds with ⟨v, text, hv, htext, rfl⟩ | ⟨-, rfl⟩
    · cases hcontent
      exact ⟨v, hlossless v hv text htext⟩
    · cases hcontent
  · intro n w
    rw [hpath, hentries, mem_records_of_rewritten hfiles (isRecordName_nameOf key), h.records]
    by_cases hn : n = nameOf V key
    · subst hn
      rw [if_pos rfl, if_pos (by simp), hheld]
      constructor
      · intro hw
        exact ⟨key, by simp, rfl, hw⟩
      · rintro ⟨other, hother, hname, hw⟩
        rcases List.mem_append.mp hother with hother | hother
        · rwa [hapart other hother hname] at hw
        · rwa [List.mem_singleton.mp hother] at hw
    · rw [if_neg hn]
      have hmem : n ∈ (edited ++ [key]).map (nameOf V) ↔ n ∈ edited.map (nameOf V) := by
        simp [hn]
      simp only [hmem]
      split
      · constructor
        · rintro ⟨other, hother, rfl, hw⟩
          refine ⟨other, by simp [hother], rfl, ?_⟩
          rw [hframe other fun hsame => hn (by rw [hsame])]
          exact hw
        · rintro ⟨other, hother, rfl, hw⟩
          have hne : other ≠ key := fun hsame => hn (by rw [hsame])
          refine ⟨other, ?_, rfl, (hframe other hne).symm.trans hw⟩
          simpa [hne] using hother
      · rfl
  · intro other hother
    rw [List.mem_append, not_or, List.mem_singleton] at hother
    rw [hentries, hframe other hother.2, h.unedited other hother.1]
  · intro other w hw
    rw [hentries] at hw
    by_cases hother : other = key
    · subst hother
      exact hkeyed w hw
    · rw [hframe other hother] at hw
      exact h.keyed other w hw

theorem Follows.perform_ends {edit : Edit V K} (h : Follows files edited r)
    (hlies : LiesAt r.disk r.path l)
    (hlossless : ∀ v, edit = .add v → Lossless v)
    (hapart : ∀ k ∈ edited, ∀ m ∈ edit.keys r.entries, nameOf V k = nameOf V m → k = m) :
    edit.perform.Ends r fun result after => result = .ok () → after.path = r.path ∧
      after.entries = edit.applied r.entries ∧ LiesAt after.disk after.path l ∧
      Follows files (edited ++ edit.keys r.entries) after := by
  cases edit with
  | add v =>
      refine (add_ends hlies v).mono ?_
      rintro result after ⟨hafter, ⟨-, hedited⟩ | ⟨fault, rfl, -⟩⟩ hok
      · refine ⟨hedited.path, hedited.entries, hafter, h.edit hedited ?_ ?_ ?_ ?_⟩
        · exact fun other hother => Entries.value?_put_other r.entries v (Ne.symm hother)
        · intro w hw
          rw [Entries.value?_put_self] at hw
          rw [Option.some.inj hw]
        · intro w hw
          rw [Entries.value?_put_self] at hw
          rw [← Option.some.inj hw]
          exact hlossless v rfl
        · exact fun other hother => hapart other hother _ (by simp [Edit.keys])
      · cases hok
  | remove key =>
      refine ends_bind (remove_ends hlies key) ?_ (by rintro fault after - ⟨⟩)
      rintro removed after ⟨hafter, ⟨-, hedited⟩ | ⟨fault, hfault, -⟩⟩
      · refine ends_pure.mpr fun _ => ?_
        rw [Edit.applied, Edit.keys] at *
        split at hedited
        · next hpresent =>
            rw [if_pos hpresent] at hapart ⊢
            refine ⟨hedited.path, hedited.entries, hafter, h.edit hedited ?_ ?_ ?_ ?_⟩
            · exact fun other hother => Entries.value?_drop_other r.entries (Ne.symm hother)
            · intro w hw
              rw [Entries.value?_drop_self] at hw
              cases hw
            · intro w hw
              rw [Entries.value?_drop_self] at hw
              cases hw
            · exact fun other hother => hapart other hother key List.mem_cons_self
        · next habsent =>
            subst hedited
            rw [if_neg habsent, List.append_nil]
            have hnone : after.entries.value? key = none := by simpa using habsent
            exact ⟨rfl, (Entries.drop_of_value?_eq_none hnone).symm, hafter, h⟩
      · cases hfault

theorem performAll_ends {edits : List (Edit V K)} (h : Follows files edited r)
    (hlies : LiesAt r.disk r.path l)
    (hlossless : ∀ v, .add v ∈ edits → Lossless v)
    (hapart : ∀ k ∈ edited ++ editedKeys r.entries edits,
      ∀ m ∈ edited ++ editedKeys r.entries edits, nameOf V k = nameOf V m → k = m) :
    (performAll edits).Ends r fun result after => result = .ok () → after.path = r.path ∧
      LiesAt after.disk after.path l ∧
      Follows files (edited ++ editedKeys r.entries edits) after := by
  -- each edit is appended to the edited keys, so that the invariant is that of one longer list
  induction edits generalizing r edited with
  | nil =>
      refine ends_pure.mpr fun _ => ⟨rfl, hlies, ?_⟩
      simpa [editedKeys] using h
  | cons edit rest ih =>
      rw [editedKeys, ← List.append_assoc] at hapart ⊢
      have hfirst := h.perform_ends hlies
        (fun v hv => hlossless v (hv ▸ List.mem_cons_self))
        fun k hk m hm => hapart k (by simp [hk]) m (by simp [hm])
      refine ends_bind hfirst ?_ (by rintro fault after - ⟨⟩)
      rintro u after hafter
      obtain ⟨hpath, hentries, hlies, hfollows⟩ := hafter rfl
      rw [← hentries] at hapart ⊢
      refine (ih hfollows hlies (fun v hv => hlossless v (List.mem_cons_of_mem edit hv))
        hapart).mono ?_
      intro result last hends hok
      obtain ⟨hlast, hrest⟩ := hends hok
      exact ⟨hlast.trans hpath, hrest⟩

/-! ## Opening again -/

/-- The files that are not under the name of an edited key. -/
def remaining (files : List (String × V)) (edited : List K) : List (String × V) :=
  files.filter fun f => f.1 ∉ edited.map (nameOf V)

omit [DecidableEq K] in
theorem InOrder.remaining (h : InOrder files) : InOrder (remaining files edited) := h.filter _

section

variable (h : Follows files edited r) (hfiles : InOrder files)

include h in
/-- What the record files hold under a key: in the file of the key itself, if it was edited, or in a
file that no edit has touched. -/
theorem Follows.mem_records_iff {n : String} {w : V} (hw : Keyed.key w = key) :
    (n, w) ∈ RecordDirectory.records V r.disk r.path ↔
      (key ∈ edited ∧ n = nameOf V key ∧ r.entries.value? key = some w) ∨
        (n, w) ∈ remaining files edited := by
  rw [h.records, remaining, List.mem_filter]
  split
  · next hname =>
      constructor
      · rintro ⟨other, hother, rfl, hvalue⟩
        obtain rfl : other = key := (h.keyed other w hvalue).symm.trans hw
        exact .inl ⟨hother, rfl, hvalue⟩
      · rintro (⟨hkey, rfl, hvalue⟩ | ⟨-, hleft⟩)
        · exact ⟨key, hkey, rfl, hvalue⟩
        · simp [hname] at hleft
  · next hname =>
      constructor
      · intro hmem
        exact .inr ⟨hmem, by simpa using hname⟩
      · rintro (⟨hkey, rfl, -⟩ | ⟨hmem, -⟩)
        · exact absurd (List.mem_map_of_mem hkey) hname
        · exact hmem

include h hfiles

theorem Follows.lastHeld?_of_absent (habsent : key ∈ edited → r.entries.value? key = none) :
    lastHeld? (RecordDirectory.records V r.disk r.path) key =
      lastHeld? (remaining files edited) key := by
  apply lastHeld?_congr hfiles.remaining (inOrder_records _ _)
  intro n w hw
  rw [h.mem_records_iff hw]
  constructor
  · rintro (⟨hkey, -, hvalue⟩ | hmem)
    · rw [habsent hkey] at hvalue
      cases hvalue
    · exact hmem
  · exact .inr

/-- A file under a later name counts more than the one of the key. -/
theorem Follows.lastHeld?_of_present (hkey : key ∈ edited) (hv : r.entries.value? key = some v) :
    lastHeld? (RecordDirectory.records V r.disk r.path) key =
      (lastHeld? ((remaining files edited).filter fun f => nameOf V key < f.1) key).or
        (some v) := by
  have hown := h.keyed key v hv
  have hlater : ∀ {n w}, (n, w) ∈ (remaining files edited).filter (fun f => nameOf V key < f.1) ↔
      (n, w) ∈ remaining files edited ∧ nameOf V key < n := by
    simp
  -- a copy under a later name hides the file of the key; without one that file is the last
  cases hlast : lastHeld? ((remaining files edited).filter fun f => nameOf V key < f.1) key with
  | none =>
      rw [lastHeld?_eq_none] at hlast
      rw [Option.none_or, lastHeld?_eq_some (inOrder_records _ _)]
      refine ⟨nameOf V key, (h.mem_records_iff hown).mpr (.inl ⟨hkey, rfl, hv⟩), hown, ?_⟩
      intro m w hm hw
      rcases (h.mem_records_iff hw).mp hm with ⟨-, rfl, -⟩ | hm
      · exact le_refl _
      · by_contra hle
        exact hlast (m, w) (hlater.mpr ⟨hm, not_le.mp hle⟩) hw
  | some u =>
      rw [lastHeld?_eq_some (hfiles.remaining.filter _)] at hlast
      obtain ⟨n, hn, hu, hmax⟩ := hlast
      rw [Option.some_or, lastHeld?_eq_some (inOrder_records _ _)]
      refine ⟨n, (h.mem_records_iff hu).mpr (.inr (hlater.mp hn).1), hu, ?_⟩
      intro m w hm hw
      rcases (h.mem_records_iff hw).mp hm with ⟨-, rfl, -⟩ | hm
      · exact (hlater.mp hn).2.le
      · by_cases hle : nameOf V key < m
        · exact hmax m w (hlater.mpr ⟨hm, hle⟩) hw
        · exact (not_lt.mp hle).trans (hlater.mp hn).2.le

end

/-- Whether opening a directory with some files again gives what is in memory under a key, once some
keys were edited: no other copy of an edited key is left, or the last one after its own file is the
same; and the last copy of another key was in no file of an edited key. -/
def Survives (files : List (String × V)) (edited : List K) (now : Option V) (key : K) : Prop :=
  if key ∈ edited then
    match now with
    | some v => ∀ w, lastHeld? ((remaining files edited).filter fun f => nameOf V key < f.1) key =
        some w → w = v
    | none => ∀ f ∈ remaining files edited, Keyed.key f.2 ≠ key
  else lastHeld? (remaining files edited) key = lastHeld? files key

theorem Follows.lastHeld?_eq_iff (h : Follows files edited r) (hfiles : InOrder files) (key : K) :
    lastHeld? (RecordDirectory.records V r.disk r.path) key = r.entries.value? key ↔
      Survives files edited (r.entries.value? key) key := by
  unfold Survives
  split
  · next hkey =>
      cases hv : r.entries.value? key with
      | none => rw [h.lastHeld?_of_absent hfiles fun _ => hv, lastHeld?_eq_none]
      | some v =>
          rw [h.lastHeld?_of_present hfiles hkey hv]
          cases lastHeld? ((remaining files edited).filter fun f => nameOf V key < f.1) key <;> simp
  · next hkey =>
      rw [h.lastHeld?_of_absent hfiles fun hmem => absurd hmem hkey, h.unedited key hkey]

/-- Everything survives where each file has the name of its own key, and no edited key shares it. -/
theorem survives_of_named (hnamed : ∀ f ∈ files, f.1 = nameOf V (Keyed.key f.2))
    (hapart : ∀ k ∈ edited, ∀ f ∈ files, nameOf V k = nameOf V (Keyed.key f.2) →
      k = Keyed.key f.2) (now : Option V) : Survives files edited now key := by
  have hown : key ∈ edited → ∀ f ∈ remaining files edited, Keyed.key f.2 ≠ key := by
    rintro hkey f hf rfl
    obtain ⟨hmem, hleft⟩ := List.mem_filter.mp hf
    rw [hnamed f hmem] at hleft
    exact (of_decide_eq_true hleft) (List.mem_map_of_mem hkey)
  unfold Survives
  split
  · next hkey =>
      cases now with
      | none => exact hown hkey
      | some v =>
          intro w hw
          rw [lastHeld?_eq_none.mpr fun f hf => hown hkey f (List.mem_of_mem_filter hf)] at hw
          cases hw
  · next hkey =>
      rw [lastHeld?, lastHeld?, remaining, List.filter_filter]
      congr 2
      apply List.filter_congr
      intro f hf
      by_cases hf' : Keyed.key f.2 = key
      · have hleft : f.1 ∉ edited.map (nameOf V) := by
          rw [hnamed f hf]
          intro hmem
          obtain ⟨k, hk, hname⟩ := List.mem_map.mp hmem
          apply hkey
          rw [← hf', ← hapart k hk f hf hname]
          exact hk
        simp [hf', hleft]
      · simp [hf']

end LinkShelf.RecordDirectory
