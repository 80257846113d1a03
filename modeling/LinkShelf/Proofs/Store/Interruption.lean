import LinkShelf.Proofs.Storage.Interruption
import LinkShelf.Proofs.Store.Durability
import LinkShelf.Proofs.Store.Reopening

/-!
Operations that are interrupted. Main statement: whatever steps of an `add` or a `remove` were
taken, the directory is opened as before it or as after it, and whatever steps of a `replace` were
taken, the old bookmark is there or the new one, and all others are as they were
(`interrupted_spec`).
-/

namespace LinkShelf.Store

open Operation RecordDirectory

variable {r : RecordDirectory Bookmark Locator} {left : Disk}

/-- What is left on the disk where a `replace` of one locator by another one is interrupted. -/
def ReplaceLeaves (r : RecordDirectory Bookmark Locator) (now : Instant) (old : Locator)
    (b : Bookmark) (left : Disk) : Prop :=
  left = r.disk ∨ ∃ stored text m pieces,
    changed b (missingTimes b (get r b.locator) now) = .ok stored ∧ recordText stored = .ok text ∧
    pieces.foldl (· ++ ·) .empty = text.toUTF8 ∧
    LeftBy r.path m (putting r.path m (nameOf Bookmark b.locator) pieces ++
      [FileStep.unlink (r.path.child (nameOf Bookmark old))]) r.disk left

theorem replaceLeaves_of_add {now : Instant} {old : Locator} {b stored : Bookmark}
    (hstored : changed b (missingTimes b (get r b.locator) now) = .ok stored)
    (hleft : AddLeaves r stored left) : ReplaceLeaves r now old b left := by
  have hkey : Keyed.key stored = b.locator := locator_of_changed hstored
  rw [AddLeaves, hkey] at hleft
  obtain rfl | ⟨text, m, pieces, htext, hpieces, hleft⟩ := hleft
  · exact .inl rfl
  · exact .inr ⟨stored, text, m, pieces, hstored, htext, hpieces, hleft.append _⟩

/-- A `replace` that is not interrupted leaves one of these disks too. -/
theorem replace_leaves (r : RecordDirectory Bookmark Locator) (now : Instant) (old : Locator)
    (b : Bookmark) :
    (replace now old b).Ends r fun _ after => ReplaceLeaves r now old b after.disk := by
  have hadd : (add now b).Ends r fun result after => ReplaceLeaves r now old b after.disk ∧
      ∀ stored, result = .ok stored → ReplaceLeaves r now old b
        (after.disk.takeAll [.unlink (after.path.child (nameOf Bookmark old))]).2 := by
    refine ends_current_bind.mpr (ends_settled_bind ?_ ?_)
    · intro stored hstored
      refine ends_bind (add_leaves r stored) ?_ ?_
      · rintro u after ⟨hpath, hleft, htaken⟩
        refine ends_report_bind (ends_pure.mpr ⟨replaceLeaves_of_add hstored hleft, ?_⟩)
        intro _ _
        obtain ⟨text, m, htext, htaken⟩ := htaken rfl
        have hkey : Keyed.key stored = b.locator := locator_of_changed hstored
        rw [hkey] at htaken
        rw [hpath]
        exact .inr ⟨stored, text, m, _, hstored, htext, ByteArray.empty_append,
          leftBy_takeAll htaken _⟩
      · rintro fault after ⟨-, hleft, -⟩
        exact ⟨replaceLeaves_of_add hstored hleft, nofun⟩
    · intro fault _
      exact ⟨.inl rfl, nofun⟩
  refine ends_bind hadd ?_ fun fault after hafter => hafter.1
  rintro stored after ⟨hafter, hremoved⟩
  have hremove : ∀ {left}, RemoveLeaves after old left → ReplaceLeaves r now old b left := by
    rintro left (rfl | ⟨-, rfl⟩)
    · exact hafter
    · exact hremoved stored rfl
  split
  · refine ends_bind (remove_leaves after old) ?_ fun _ _ hlast => hremove hlast
    intro u last hlast
    exact ends_report_bind (ends_pure.mpr (hremove hlast))
  · exact ends_pure.mpr hafter

theorem replace_settles {used : Locator → Prop} {l : Location} (h : IsSettled used l r)
    (hapart : ∀ k m, used k → used m → nameOf Bookmark k = nameOf Bookmark m → k = m)
    {now : Instant} {old : Locator} {b : Bookmark} (hne : b.locator ≠ old) (hused : used b.locator)
    (hlossless : ∀ stored, changed b (missingTimes b (get r b.locator) now) = .ok stored →
      Lossless stored) :
    (replace now old b).Ends r fun result after => ∀ stored, result = .ok stored →
      OpensAs after.disk r.path ((r.entries.put b.locator stored).drop old).value? := by
  have hadd : (add now b).Ends r fun result after => ∀ stored, result = .ok stored →
      IsSettled used l after ∧ after.path = r.path ∧
        after.entries = r.entries.put b.locator stored := by
    refine ends_current_bind.mpr (ends_settled_bind ?_ fun _ _ => nofun)
    intro stored hstored
    have hkey : Keyed.key stored = b.locator := locator_of_changed hstored
    rw [← hkey] at hused ⊢
    refine ends_bind (h.add_settles hapart (hlossless stored hstored) hused) ?_ fun _ _ _ => nofun
    rintro u after ⟨hsettled, hafter⟩
    refine ends_report_bind (ends_pure.mpr ?_)
    rintro other ⟨⟩
    exact ⟨hsettled, hafter rfl⟩
  refine ends_bind hadd ?_ fun _ _ _ => nofun
  intro stored after hafter
  obtain ⟨hsettled, hpath, hentries⟩ := hafter stored rfl
  rw [if_pos hne]
  refine ends_bind (hsettled.remove_settles old) ?_ fun _ _ _ => nofun
  rintro removed last ⟨hlast, hremoved⟩
  obtain ⟨hlastPath, hlastEntries⟩ := hremoved removed rfl
  refine ends_report_bind (ends_pure.mpr ?_)
  rintro other ⟨⟩
  rw [← hpath, ← hlastPath, ← hentries, ← hlastEntries]
  exact hlast.opensAs

/-- What the directory of a map that was opened is opened as, after an operation on the map, or one
that was interrupted. -/
theorem interrupted_spec :
    (∀ {V K : Type} [Record V K] [DecidableEq K] {used : K → Prop} {r : RecordDirectory V K},
      IsReached used r → (∀ k m, used k → used m → nameOf V k = nameOf V m → k = m) →
        (∀ v, used (Keyed.key v) → Lossless v →
          let added := (RecordDirectory.add v).execute r
          AddLeaves r v added.2.state.disk ∧
          (added.1 = .ok () →
            OpensAs added.2.state.disk r.path (r.entries.put (Keyed.key v) v).value?) ∧
          ∀ left, AddLeaves r v left → OpensAs left r.path r.entries.value? ∨
            OpensAs left r.path (r.entries.put (Keyed.key v) v).value?) ∧
        ∀ key,
          let removed := (RecordDirectory.remove key).execute r
          RemoveLeaves r key removed.2.state.disk ∧
          (∀ v?, removed.1 = .ok v? →
            OpensAs removed.2.state.disk r.path (r.entries.drop key).value?) ∧
          ∀ left, RemoveLeaves r key left → OpensAs left r.path r.entries.value? ∨
            OpensAs left r.path (r.entries.drop key).value?) ∧
    ∀ {used : Locator → Prop} {r : RecordDirectory Bookmark Locator},
      IsReached used r → (∀ k m, used k → used m → nameOf Bookmark k = nameOf Bookmark m → k = m) →
        ∀ now old b, (get r old).isSome = true → b.locator ≠ old → used b.locator →
          (∀ stored, changed b (missingTimes b (get r b.locator) now) = .ok stored →
            Lossless stored) →
          let replaced := (replace now old b).execute r
          ReplaceLeaves r now old b replaced.2.state.disk ∧
          (∀ stored, replaced.1 = .ok stored → OpensAs replaced.2.state.disk r.path
            ((r.entries.put b.locator stored).drop old).value?) ∧
          ∀ left, ReplaceLeaves r now old b left → ∃ held, OpensAs left r.path held ∧
            (held old = get r old ∨
              ∃ stored, changed b (missingTimes b (get r b.locator) now) = .ok stored ∧
                held b.locator = some stored) ∧
            ∀ other, other ≠ old → other ≠ b.locator → held other = get r other := by
  constructor
  · intro V K _ _ used r hreached hapart
    obtain ⟨l, hsettled⟩ := hreached.exists_isSettled hapart
    constructor
    · intro v hused hlossless added
      refine ⟨(add_leaves r v).execute.2.1, ?_, ?_⟩
      · intro hok
        obtain ⟨hafter, hentries⟩ := (hsettled.add_settles hapart hlossless hused).execute
        rw [← (hentries hok).1, ← (hentries hok).2]
        exact hafter.opensAs
      · intro left hleft
        exact hsettled.interrupted_add hapart hused hlossless hleft
    · intro key removed
      refine ⟨(remove_leaves r key).execute, ?_, ?_⟩
      · intro v? hok
        obtain ⟨hafter, hentries⟩ := (hsettled.remove_settles key).execute
        rw [← (hentries v? hok).1, ← (hentries v? hok).2]
        exact hafter.opensAs
      · intro left hleft
        exact hsettled.interrupted_remove hleft
  · intro used r hreached hapart now old b hpresent hne hused hlossless replaced
    obtain ⟨l, hsettled⟩ := hreached.exists_isSettled hapart
    refine ⟨(replace_leaves r now old b).execute,
      (replace_settles hsettled hapart hne hused hlossless).execute, ?_⟩
    intro left hleft
    obtain rfl | ⟨stored, text, m, pieces, hstored, htext, hpieces, hleft⟩ := hleft
    · exact ⟨_, hsettled.opensAs, .inl rfl, fun _ _ _ => rfl⟩
    · have hkey : Keyed.key stored = b.locator := locator_of_changed hstored
      rw [← hkey] at hne hused hleft
      obtain ⟨held, hopens, hone, hothers⟩ := hsettled.interrupted_replace hapart hused
        (hlossless stored hstored) hne hpresent htext hpieces hleft
      rw [hkey] at hone hothers
      refine ⟨held, hopens, hone.imp_right ?_, hothers⟩
      intro hnew
      exact ⟨stored, hstored, hnew⟩

/-- One page is put into the place of another one, up to any step. -/
theorem interrupted_spec_namedShelf :
    ∃ (opened : RecordDirectory Bookmark Locator) (stored : Bookmark) (text : String),
      ((RecordDirectory.load (.ofParts ["shelf"]) "url").execute namedShelf).1 = .ok opened ∧
      recordText stored = .ok text ∧
      ∀ n, let adding := putting opened.path 0 (nameOf Bookmark ⟨"http://b.org/"⟩) [text.toUTF8]
        let removing := FileStep.unlink (opened.path.child (nameOf Bookmark ⟨"http://a.org/"⟩))
        (OpensAs (opened.disk.takeAll (adding.take n)).2 opened.path opened.entries.value? ∨
          OpensAs (opened.disk.takeAll (adding.take n)).2 opened.path
            (opened.entries.put ⟨"http://b.org/"⟩ stored).value?) ∧
        (OpensAs (opened.disk.takeAll [removing]).2 opened.path opened.entries.value? ∨
          OpensAs (opened.disk.takeAll [removing]).2 opened.path
            (opened.entries.drop ⟨"http://a.org/"⟩).value?) ∧
        ∃ held, OpensAs (opened.disk.takeAll ((adding ++ [removing]).take n)).2 opened.path held ∧
          (held ⟨"http://a.org/"⟩ = get opened ⟨"http://a.org/"⟩ ∨
            held ⟨"http://b.org/"⟩ = some stored) := by
  have hopen : (((RecordDirectory.load (V := Bookmark) (.ofParts ["shelf"]) "url").execute
      namedShelf).1.toOption.map fun r =>
        ((get r ⟨"http://a.org/"⟩).isSome, (get r ⟨"http://b.org/"⟩).isSome)) =
      some (true, false) := by
    decide +kernel
  obtain ⟨opened, hopened, hheld⟩ := Option.map_eq_some_iff.mp hopen
  rw [toOption_eq_some] at hopened
  obtain ⟨hpresent, habsent⟩ := Prod.mk.inj hheld
  have hfiles := files_of_namedShelf hopened
  have hreached : IsReached IsSamplePage opened :=
    .opened hopened (fun f hf => (hfiles f hf).1) fun f hf => .inl (hfiles f hf).2
  have hapart : ∀ k m, IsSamplePage k → IsSamplePage m →
      nameOf Bookmark k = nameOf Bookmark m → k = m :=
    fun k m hk hm hname => apart_of_isSamplePage hk hm (fileName_inj.mp hname)
  have hpage : (samplePage "http://b.org/").IsCanonical := samplePage_isCanonical rfl
  have hnone : get opened ⟨"http://b.org/"⟩ = none := by simpa using habsent
  have hbefore : ∀ other t, get opened ⟨"http://b.org/"⟩ = some other → other.created = some t →
      t.IsRecordable := by
    rw [hnone]
    nofun
  obtain ⟨stored, hstored, hcanonical, hlocator, -⟩ :=
    changed_missingTimes hpage hbefore noon_isRecordable
  have hwritten : ((changed (samplePage "http://b.org/")
      (missingTimes (samplePage "http://b.org/") none noon)).bind recordText).toOption.isSome =
        true := by
    decide +kernel
  obtain ⟨text, htext⟩ := Option.isSome_iff_exists.mp hwritten
  rw [toOption_eq_some, ← hnone, hstored] at htext
  have hlossless : Lossless stored := fun other hother =>
    valueOfBytes_recordText hcanonical hother
  have hkey : Keyed.key stored = (⟨"http://b.org/"⟩ : Locator) := hlocator
  obtain ⟨hmap, hstore⟩ := interrupted_spec
  obtain ⟨hadd, hremove⟩ := hmap hreached hapart
  obtain ⟨-, -, hadded⟩ := hadd stored (by rw [hkey]; exact .inr rfl) hlossless
  obtain ⟨-, -, hremoved⟩ := hremove ⟨"http://a.org/"⟩
  obtain ⟨-, -, hreplaced⟩ := hstore hreached hapart noon ⟨"http://a.org/"⟩
    (samplePage "http://b.org/") hpresent (by decide) (.inr rfl) (by
      intro other hother
      rwa [← Except.ok.inj (hstored.symm.trans hother)])
  rw [hkey] at hadded
  refine ⟨opened, stored, text, hopened, htext, ?_⟩
  intro n adding removing
  refine ⟨?_, hremoved _ (.inr ⟨hpresent, rfl⟩), ?_⟩
  · apply hadded
    exact .inr ⟨text, 0, _, htext, ByteArray.empty_append, n, .inl (by rw [hkey])⟩
  · obtain ⟨held, hopens, hone, -⟩ := hreplaced _ (.inr ⟨stored, text, 0, [text.toUTF8], hstored,
      htext, ByteArray.empty_append, n, .inl rfl⟩)
    refine ⟨held, hopens, hone.imp_right ?_⟩
    rintro ⟨other, hother, hheld⟩
    rw [Except.ok.inj (hstored.symm.trans hother)]
    exact hheld

end LinkShelf.Store
