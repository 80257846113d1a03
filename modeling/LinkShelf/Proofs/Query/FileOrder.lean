import LinkShelf.Proofs.Query.MapOrder
import LinkShelf.Proofs.Storage.FileOrder

/-!
Directories that are opened again. Main statement: a map gives its values, and unsorted queries give
what they find, as they are given once its directory is opened again, exactly if the map has its
values in the order of the names of their files; and it has that order all the time exactly if
each key that comes in has a file name after those that are there (`values_eq_reopened_iff`).
-/

namespace LinkShelf.Query

open RecordDirectory
open Store (samplePage IsSamplePage samplePage_isCanonical apart_of_isSamplePage)

/-- Whether a query leaves what it finds in the order in which it comes. -/
def IsUnsorted (q : Query) : Prop := ∀ o, .sort o ∉ q.stages

/-- Whether a query cuts nothing off. -/
def IsUnlimited (q : Query) : Prop := ∀ n, .limit n ∉ q.stages

section

variable {used : Locator → Prop} {opened fresh : RecordDirectory Bookmark Locator}
  {calls : List (Call Bookmark Locator)} {zone : Zone}

/-- The query without terms tells any two orders apart. -/
theorem forall_run_eq_iff (h : IsServed used opened calls)
    (hfresh : Reopens (afterCalls calls opened) fresh) :
    (∀ q : Query, q.IsUnsorted → q.run zone (KeyedMap.values (afterCalls calls opened)) =
        q.run zone (KeyedMap.values fresh)) ↔
      InFileOrder (afterCalls calls opened).entries := by
  rw [← h.values_eq_iff hfresh]
  constructor
  · intro hall
    exact Except.ok.inj (hall ⟨[], []⟩ nofun)
  · intro hvalues q _
    rw [hvalues]

/-- Without a limit nothing but the order of what is found can differ. -/
theorem run_perm_of_reopens (h : IsServed used opened calls)
    (hfresh : Reopens (afterCalls calls opened) fresh) {q : Query} (hq : q.IsUnlimited)
    {found : List Bookmark}
    (hrun : q.run zone (KeyedMap.values (afterCalls calls opened)) = .ok found) :
    ∃ more, q.run zone (KeyedMap.values fresh) = .ok more ∧ found.Perm more := by
  obtain ⟨keyName, hload⟩ := hfresh.loaded
  have hsound := (RecordDirectory.load_isSoundAt _ _ keyName).execute.1 fresh hload
  rw [h.isSoundAt.path] at hsound
  have hperm := (all_perm h.isSoundAt hsound hfresh.values).symm
  refine (Stage.runAll_of_perm ?_ hperm (nodup_all h.isSoundAt) hrun).1
  rintro stage hstage n rfl
  exact hq n hstage

end

/-- A directory whose files have the names of their keys is opened in the order of these names.
After any calls, whichever of their writes fail, it can be opened again and then has that order; the
values that the map in memory gives, and what queries find that sort nothing, are in the same order
exactly if the map has kept it. It has kept it all the time exactly if each key that came in had a
file name after those of all keys that were there. Queries that cut nothing off find the same
bookmarks either way. -/
theorem values_eq_reopened_iff {V K : Type} [Record V K] [DecidableEq K] {used : K → Prop}
    {opened : RecordDirectory V K} {calls : List (Call V K)} (h : IsServed used opened calls) :
    InFileOrder opened.entries ∧
    (∀ keyName, ∃ fresh,
      ((RecordDirectory.load opened.path keyName).execute
        (afterCalls calls opened).disk).1 = .ok fresh ∧
      Reopens (afterCalls calls opened) fresh) ∧
    (∀ fresh, Reopens (afterCalls calls opened) fresh → InFileOrder fresh.entries ∧
      (KeyedMap.values (afterCalls calls opened) = KeyedMap.values fresh ↔
        InFileOrder (afterCalls calls opened).entries)) ∧
    ((∀ n, InFileOrder (afterCalls (calls.take n) opened).entries) ↔
      ∀ n, ComesLast (afterCalls (calls.take n) opened).entries
        (afterCalls (calls.take (n + 1)) opened).entries) ∧
    ∀ {used : Locator → Prop} {opened fresh : RecordDirectory Bookmark Locator}
      {calls : List (Call Bookmark Locator)}, IsServed used opened calls →
      Reopens (afterCalls calls opened) fresh → ∀ zone,
      ((∀ q : Query, q.IsUnsorted → q.run zone (KeyedMap.values (afterCalls calls opened)) =
          q.run zone (KeyedMap.values fresh)) ↔
        InFileOrder (afterCalls calls opened).entries) ∧
      ∀ q : Query, q.IsUnlimited → ∀ found,
        q.run zone (KeyedMap.values (afterCalls calls opened)) = .ok found →
        ∃ more, q.run zone (KeyedMap.values fresh) = .ok more ∧ found.Perm more := by
  refine ⟨h.inFileOrder, h.exists_reopens, fun fresh hfresh => ?_, ?_, ?_⟩
  · exact ⟨h.inFileOrder_of_reopens hfresh, h.values_eq_iff hfresh⟩
  · refine forall_inFileOrder_iff ?_ h.isEditOf
    exact h.inFileOrder
  · intro used opened fresh calls h hfresh zone
    exact ⟨forall_run_eq_iff h hfresh, fun q hq found => run_perm_of_reopens h hfresh hq⟩

/-! ## Two pages

The file of the page `http://a.org/` has the smaller name.
-/

theorem nameOf_samplePages :
    nameOf Bookmark (⟨"http://a.org/"⟩ : Locator) <
      nameOf Bookmark (⟨"http://b.org/"⟩ : Locator) := by
  have hfirst : nameOf Bookmark (⟨"http://a.org/"⟩ : Locator) =
      "46ebe0b0bd343dd876bdbfd1e7f326b4f01bdb31.json" := by decide +kernel
  have hsecond : nameOf Bookmark (⟨"http://b.org/"⟩ : Locator) =
      "717c3db41cb1ed69fba31d6a21709ee97599b9b3.json" := by decide +kernel
  rw [hfirst, hsecond]
  decide +kernel

theorem inFileOrder_of_keys {entries : Entries Locator Bookmark}
    (hkeys : Entries.keys entries = [⟨"http://a.org/"⟩, ⟨"http://b.org/"⟩]) :
    InFileOrder entries := by
  rw [InFileOrder, hkeys, List.pairwise_pair]
  exact nameOf_samplePages

def adding (url : String) : Call Bookmark Locator := ⟨.add (samplePage url), fun _ => none⟩

def urlsOf (r : RecordDirectory Bookmark Locator) : List String :=
  (KeyedMap.values r).map Bookmark.url

theorem isServed_shelfStore {urls : List String}
    (hurls : ∀ url ∈ urls, IsSamplePage ⟨url⟩) :
    IsServed IsSamplePage shelfStore (urls.map adding) := by
  have hempty : recordNames shelfStore.disk shelfStore.path = [] :=
    recordNames_eq .nil (.refl _)
  refine ⟨⟨shelfStore.disk, "url", ?_⟩, ?_, ?_, ?_⟩
  · have hfaithful : Faithful (Store.Keeps IsSamplePage) :=
      Store.faithful_keeps fun _ _ => apart_of_isSamplePage
    have hmirrors : Mirrors (Store.Keeps IsSamplePage) ["shelf"] shelfStore :=
      ⟨rfl, rfl, .refl _, nofun, List.nodup_nil⟩
    obtain ⟨-, entries, hnone, hopened⟩ :=
      (RecordDirectory.load_spec hfaithful hmirrors "url").execute
    obtain rfl := List.perm_nil.mp hnone
    exact hopened
  · intro f hf
    rw [records, hempty] at hf
    cases hf
  · exact fun k m hk hm hname => apart_of_isSamplePage hk hm (fileName_inj.mp hname)
  · rintro call hcall v hv
    obtain ⟨url, hurl, rfl⟩ := List.mem_map.mp hcall
    obtain rfl := Change.add.inj hv
    refine ⟨fun text htext => ?_, hurls url hurl⟩
    have hof : Locator.of url = .ok ⟨url⟩ := by
      rcases hurls url hurl with h | h <;> cases h <;> rfl
    exact valueOfBytes_recordText (samplePage_isCanonical hof) htext

theorem values_eq_reopened_samplePages :
    IsServed IsSamplePage shelfStore (["http://a.org/", "http://b.org/"].map adding) ∧
      ∃ fresh, Reopens (afterCalls (["http://a.org/", "http://b.org/"].map adding) shelfStore)
          fresh ∧
        KeyedMap.values (afterCalls (["http://a.org/", "http://b.org/"].map adding) shelfStore) =
          KeyedMap.values fresh ∧
        urlsOf fresh = ["http://a.org/", "http://b.org/"] := by
  have hserved : IsServed IsSamplePage shelfStore
      (["http://a.org/", "http://b.org/"].map adding) :=
    isServed_shelfStore (by simp [IsSamplePage])
  obtain ⟨-, hopens, hvalues, -⟩ := values_eq_reopened_iff hserved
  obtain ⟨fresh, -, hfresh⟩ := hopens "url"
  have hsame := (hvalues fresh hfresh).2.mpr (inFileOrder_of_keys (by decide +kernel))
  refine ⟨hserved, fresh, hfresh, hsame, ?_⟩
  rw [urlsOf, ← hsame]
  decide +kernel

/-- Two pages that are added in the other order change places when the directory is opened again. -/
theorem values_differ_samplePages :
    IsServed IsSamplePage shelfStore (["http://b.org/", "http://a.org/"].map adding) ∧
      ∃ fresh, Reopens (afterCalls (["http://b.org/", "http://a.org/"].map adding) shelfStore)
          fresh ∧
        urlsOf (afterCalls (["http://b.org/", "http://a.org/"].map adding) shelfStore) =
          ["http://b.org/", "http://a.org/"] ∧
        urlsOf fresh = ["http://a.org/", "http://b.org/"] := by
  have hserved : IsServed IsSamplePage shelfStore
      (["http://b.org/", "http://a.org/"].map adding) :=
    isServed_shelfStore (by simp [IsSamplePage])
  obtain ⟨fresh, -, hfresh⟩ := hserved.exists_reopens "url"
  have hurls : urlsOf (afterCalls (["http://b.org/", "http://a.org/"].map adding) shelfStore) =
      ["http://b.org/", "http://a.org/"] := by decide +kernel
  have hkeys : (Entries.keys (afterCalls (["http://b.org/", "http://a.org/"].map adding)
      shelfStore).entries).reverse = [⟨"http://a.org/"⟩, ⟨"http://b.org/"⟩] := by decide +kernel
  have horder := inFileOrder_of_keys (List.map_reverse.trans hkeys)
  have hperm := Entries.perm_of_value?_eq hserved.isSoundAt.entries.distinct
    (hserved.inFileOrder_of_reopens hfresh).distinct hfresh.values
  have hentries := horder.eq_of_perm (hserved.inFileOrder_of_reopens hfresh)
    (hperm.trans (List.reverse_perm _).symm)
  refine ⟨hserved, fresh, hfresh, hurls, ?_⟩
  show (fresh.entries.map (·.2)).map Bookmark.url = _
  rw [hentries, List.map_reverse, List.map_reverse]
  exact congrArg List.reverse hurls

end LinkShelf.Query
