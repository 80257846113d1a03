import LinkShelf.Proofs.Storage.EqualEntries
import LinkShelf.Proofs.Store.Alike

/-!
Removal of a bookmark by its value. Main statement: a record directory loses the one entry that is
to be taken for a value, and nothing if there is none; a store, whose bookmarks are equal only under
one locator, loses a bookmark exactly if it holds an equal one under that locator
(`removal_by_value`).
-/

namespace LinkShelf

open Operation

namespace Store

open RecordDirectory

variable {b : Bookmark}

/-- Whether a store gave back the equal bookmark that it held under the locator of another one, if
it held such a bookmark, and holds what it held but for this one. -/
def GivesEqual {σ : Type} [KeyedMap σ Locator Bookmark] (s : σ) (b : Bookmark)
    (removed : Option Bookmark) (after : σ) : Prop :=
  removed = ((get s b.locator).filter fun held => held.same b) ∧
    ∀ l, get after l = if removed.isSome = true ∧ l = b.locator then none else get s l

section

variable {entries : Entries Locator Bookmark} (h : entries.IsSound)

theorem filter_eq_none (hnone : ∀ e ∈ entries, e.2.same b = false) :
    ((entries.value? b.locator).filter fun held => held.same b) = none := by
  cases hvalue : entries.value? b.locator with
  | none => rfl
  | some held =>
      have hheld : held.same b = false :=
        hnone (b.locator, held) (Entries.mem_of_value?_eq_some hvalue)
      rw [Option.filter_some, if_neg (by simp [hheld])]

include h

theorem filter_eq_some {e : Locator × Bookmark} (he : e ∈ entries) (hsame : e.2.same b = true) :
    e.1 = b.locator ∧
      ((entries.value? b.locator).filter fun held => held.same b) = some e.2 := by
  have hkey : e.1 = b.locator := (h.keyed e he).symm.trans (Bookmark.locator_eq_of_same hsame)
  refine ⟨hkey, ?_⟩
  rw [← hkey, (Entries.value?_eq_some_iff h.distinct).mpr he, Option.filter_some, if_pos hsame]

end

theorem removeSame_recordDirectory (r : RecordDirectory Bookmark Locator) (b : Bookmark)
    (h : r.entries.IsSound) :
    (removeSame b).Ends r fun result after =>
      ∀ removed, result = .ok removed → GivesEqual r b removed after := by
  refine ends_bind (removeSame_ends h.distinct b) ?_ ?_
  · rintro removed after (⟨fault, hfault⟩ | ⟨hnone, hok, rfl⟩ |
      ⟨front, e, back, htaken, hok, hloses⟩)
    · cases hfault
    · cases hok
      refine ends_reportRemoved fun removed hremoved => ?_
      cases hremoved
      exact ⟨(filter_eq_none hnone).symm, by simp⟩
    · cases hok
      have he : e ∈ r.entries := by simp [hloses.before]
      obtain ⟨hkey, hfilter⟩ := filter_eq_some h he htaken.same
      have hdistinct := h.distinct
      rw [hloses.before] at hdistinct
      have hdrop : after.entries = r.entries.drop b.locator := by
        rw [hloses.entries, hloses.before, ← hkey, Entries.drop_of_split hdistinct]
      refine ends_reportRemoved fun removed hremoved => ?_
      cases hremoved
      refine ⟨hfilter.symm, fun l => ?_⟩
      change after.entries.value? l = _
      rw [hdrop, Entries.value?_drop_eq_ite]
      simp only [Option.isSome_some, true_and]
      rfl
  · rintro fault after - removed hok
    cases hok

theorem removeSame_memoryMap (m : MemoryMap Locator Bookmark) (b : Bookmark)
    (h : m.entries.IsSound) :
    (removeSame b).Ends m fun result after =>
      ∀ removed, result = .ok removed → GivesEqual m b removed after := by
  have hremoved : (KeyedMap.removeSame b).Ends m fun result after =>
      ∃ removed, result = .ok removed ∧ GivesEqual m b removed after := by
    refine ends_current_bind.mpr ?_
    cases hfind : m.entries.find? fun e => Keyed.same e.2 b with
    | none =>
        have hnone : ∀ e ∈ m.entries, e.2.same b = false := fun e he =>
          Bool.eq_false_iff.mpr (List.find?_eq_none.mp hfind e he)
        exact ends_pure.mpr ⟨none, rfl, (filter_eq_none hnone).symm, by simp⟩
    | some e =>
        have hsame : Keyed.same e.2 b = true := by simpa using List.find?_some hfind
        obtain ⟨hkey, hfilter⟩ := filter_eq_some h (List.mem_of_find?_eq_some hfind) hsame
        refine ends_change_bind.mpr (ends_pure.mpr ⟨some e.2, rfl, hfilter.symm, fun l => ?_⟩)
        change (m.entries.drop e.1).value? l = _
        rw [Entries.value?_drop_eq_ite, hkey]
        simp only [Option.isSome_some, true_and]
        rfl
  refine ends_bind hremoved ?_ ?_
  · rintro removed after ⟨_, ⟨⟩, hgives⟩
    refine ends_reportRemoved fun other hother => ?_
    cases hother
    exact hgives
  · rintro fault after ⟨_, ⟨⟩, -⟩

/-- A record directory, whatever its values are and however they are compared, is left as it is by
a removal by value if no entry is equal, and otherwise loses the one entry that is to be taken, in
memory and on the disk, unless it fails. A store gives back the bookmark under the locator exactly
if that is equal. -/
theorem removal_by_value :
    (∀ {V K : Type} [DecidableEq K] [Record V K] (r : RecordDirectory V K) (v : V),
      (Entries.keys r.entries).Nodup →
        (RecordDirectory.removeSame v).Ends r fun result after => (∃ fault, result = .error fault) ∨
          ((∀ e ∈ r.entries, Keyed.same e.2 v = false) ∧ result = .ok none ∧ after = r) ∨
          ∃ front e back, IsTakenFor v r.entries front e ∧ result = .ok (some e.2) ∧
            Loses r front e back after) ∧
    (∀ (r : RecordDirectory Bookmark Locator) (b : Bookmark), r.entries.IsSound →
      (removeSame b).Ends r fun result after =>
        ∀ removed, result = .ok removed → GivesEqual r b removed after) ∧
    ∀ (m : MemoryMap Locator Bookmark) (b : Bookmark), m.entries.IsSound →
      (removeSame b).Ends m fun result after =>
        ∀ removed, result = .ok removed → GivesEqual m b removed after :=
  ⟨fun _ v hdistinct => removeSame_ends hdistinct v, removeSame_recordDirectory,
    removeSame_memoryMap⟩

/-- A note under a key. Notes are equal if they say the same. -/
structure Note where
  key : String
  body : Int
  deriving DecidableEq

instance : Record Note String where
  key n := n.key
  same a b := a.body == b.body
  keyText key := key
  encode n := .ok (.object [("key", .text n.key), ("body", .int n.body)])
  decode
    | .object [("key", .text key), ("body", .int body)] => .ok ⟨key, body⟩
    | _ => .error .noSuchOperation

/-- Three notes, of which the second says something else than the others. -/
def threeNotes : RecordDirectory Note String :=
  let noted : Operation (RecordDirectory Note String) Unit := do
    RecordDirectory.add ⟨"a", 1⟩
    RecordDirectory.add ⟨"b", 2⟩
    RecordDirectory.add ⟨"c", 1⟩
  (noted.execute ⟨sampleDisk, .ofParts ["shelf"], "key", []⟩).2.state

def pageOnShelf : RecordDirectory Bookmark Locator :=
  ⟨sampleDisk, .ofParts ["shelf"], "url", [(⟨"http://a.org/"⟩, samplePage "http://a.org/")]⟩

/-- What is said under another key is taken where it comes first, and pages are taken by their
locators. -/
theorem removal_by_value_threeNotes :
    (∃ front e back after, (RecordDirectory.removeSame (⟨"b", 1⟩ : Note)).execute threeNotes =
        (.ok (some ⟨"a", 1⟩), after) ∧ e.2 = ⟨"a", 1⟩ ∧
        IsTakenFor ⟨"b", 1⟩ threeNotes.entries front e ∧
        Loses threeNotes front e back after.state) ∧
    ((removeSame (samplePage "http://a.org/")).Ends pageOnShelf fun result after =>
      ∀ removed, result = .ok removed →
        GivesEqual pageOnShelf (samplePage "http://a.org/") removed after) ∧
    (removeSame (samplePage "http://a.org/")).Ends pageInMemory fun result after =>
      ∀ removed, result = .ok removed →
        GivesEqual pageInMemory (samplePage "http://a.org/") removed after := by
  obtain ⟨hdirectory, hshelf, hmemory⟩ := removal_by_value
  refine ⟨?_, ?_, hmemory _ _ (MemoryMap.isSound_ofValues _)⟩
  · have hdistinct : (Entries.keys threeNotes.entries).Nodup := by decide +kernel
    have hresult : ((RecordDirectory.removeSame (⟨"b", 1⟩ : Note)).execute threeNotes).1.toOption =
        some (some ⟨"a", 1⟩) := by decide +kernel
    rw [toOption_eq_some] at hresult
    have hends := (hdirectory threeNotes ⟨"b", 1⟩ hdistinct).execute
    rcases hrun : (RecordDirectory.removeSame (⟨"b", 1⟩ : Note)).execute threeNotes with
      ⟨result, after⟩
    rw [hrun] at hresult hends
    obtain rfl : result = .ok (some ⟨"a", 1⟩) := hresult
    rcases hends with ⟨fault, hfault⟩ | ⟨-, hok, -⟩ | ⟨front, e, back, htaken, hok, hloses⟩
    · cases hfault
    · cases hok
    · exact ⟨front, e, back, after, rfl, (Option.some.inj (Except.ok.inj hok)).symm, htaken, hloses⟩
  · refine hshelf pageOnShelf _ ⟨?_, List.nodup_singleton _⟩
    simp only [pageOnShelf, List.forall_mem_singleton]
    rfl

end Store

end LinkShelf
