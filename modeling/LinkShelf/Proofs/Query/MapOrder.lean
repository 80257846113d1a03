import LinkShelf.Proofs.Query.Meaning
import LinkShelf.Proofs.Store.Failures

/-!
Queries on the bookmarks of a map, whatever the order in which it gives them. Main statement: a query
with a term `by:url` before all its limits gives the same for the bookmarks in any order, and so it
does when a store is opened again and holds the same bookmarks (`run_of_perm`).
-/

namespace LinkShelf

/-- Whether a term puts bookmarks in the order of a name. -/
def Term.AsksFor (name : String) (t : Term) : Prop :=
  t.IsOrdering ∧ String.ofList (Text.lower (Text.strip t.argument.toList)) = name

theorem Registry.compile_of_isOrdering {t : Term} (ht : t.IsOrdering) (present : Present) :
    builtin.compile present t = Action.order present t := by
  obtain ⟨action, argument⟩ := t
  obtain rfl | rfl := ht
  · rfl
  · rfl

theorem Registry.compile_byUrl {t : Term} (ht : t.AsksFor "url") (present : Present) :
    builtin.compile present t = .ok (.sort .byUrl) := by
  rw [compile_of_isOrdering ht.1, Action.order, ht.2]
  rfl

variable {zone : Zone} {bookmarks others found : List Bookmark}

/-- Bookmarks of different locators have one order by their URLs. -/
theorem SortOrder.arrange_byUrl_of_perm (hperm : bookmarks.Perm others)
    (hdistinct : (bookmarks.map (·.locator)).Nodup) :
    byUrl.arrange byUrl.field.key? bookmarks = byUrl.arrange byUrl.field.key? others := by
  have hsorted : ∀ {l : List Bookmark}, (l.map (·.locator)).Nodup →
      (byUrl.arrange byUrl.field.key? l).Pairwise fun a b => compare a.url b.url = .lt := by
    intro l hl
    have hurls : l.Pairwise fun a b => a.url ≠ b.url :=
      (List.pairwise_map.mp hl).imp fun hne heq => hne (congrArg Locator.mk heq)
    refine (pairwise_arrange ?_ hurls).imp ?_
    · intro b _ k hk
      cases hk
      trivial
    · rintro a b (hlt | ⟨heq, hne⟩)
      · exact hlt
      · exact absurd (Std.LawfulEqOrd.eq_of_compare heq) hne
  have hothers := (hperm.map (·.locator)).nodup_iff.mp hdistinct
  refine List.Perm.eq_of_pairwise ?_ (hsorted hdistinct) (hsorted hothers)
    ((perm_arrange _ _).trans (hperm.trans (perm_arrange _ _).symm))
  exact fun a b _ _ hab hba => (Std.OrientedCmp.not_lt_of_lt hab hba).elim

namespace Stage

variable {stage : Stage}

/-- A stage that cuts nothing off treats bookmarks the same in any order. -/
theorem exists_run_of_perm (hstage : ∀ n, stage ≠ .limit n) (hperm : bookmarks.Perm others)
    (hrun : stage.run zone bookmarks = .ok found) :
    ∃ more, stage.run zone others = .ok more ∧ found.Perm more := by
  cases stage with
  | keep test =>
      obtain ⟨htests, rfl⟩ := filterM_eq_ok_iff.mp hrun
      exact ⟨_, filterM_eq_ok_iff.mpr ⟨fun b hb => htests b (hperm.mem_iff.mpr hb), rfl⟩,
        hperm.filter _⟩
  | sort o =>
      obtain ⟨hkeys, rfl⟩ := SortOrder.sort_eq_ok_iff.mp hrun
      exact ⟨_, SortOrder.sort_eq_ok_iff.mpr ⟨fun b hb => hkeys b (hperm.mem_iff.mpr hb), rfl⟩,
        (SortOrder.perm_arrange _ _).trans (hperm.trans (SortOrder.perm_arrange _ _).symm)⟩
  | limit n => exact absurd rfl (hstage n)

theorem nodup_of_run (hdistinct : (bookmarks.map (·.locator)).Nodup)
    (hrun : stage.run zone bookmarks = .ok found) : (found.map (·.locator)).Nodup := by
  cases stage with
  | keep test =>
      obtain ⟨-, rfl⟩ := filterM_eq_ok_iff.mp hrun
      exact hdistinct.sublist (List.filter_sublist.map _)
  | sort o =>
      obtain ⟨-, rfl⟩ := SortOrder.sort_eq_ok_iff.mp hrun
      exact ((SortOrder.perm_arrange _ _).map _).nodup_iff.mpr hdistinct
  | limit n =>
      cases hrun
      exact hdistinct.sublist ((List.take_sublist n bookmarks).map _)

/-- Stages that cut nothing off treat bookmarks the same in any order. -/
theorem runAll_of_perm {stages : List Stage} (hstages : ∀ stage ∈ stages, ∀ n, stage ≠ .limit n)
    (hperm : bookmarks.Perm others) (hdistinct : (bookmarks.map (·.locator)).Nodup)
    (hrun : stages.foldlM (fun found stage => stage.run zone found) bookmarks = .ok found) :
    (∃ more, stages.foldlM (fun found stage => stage.run zone found) others = .ok more ∧
        found.Perm more) ∧
      (found.map (·.locator)).Nodup := by
  induction stages generalizing bookmarks others with
  | nil =>
      cases hrun
      exact ⟨⟨others, rfl, hperm⟩, hdistinct⟩
  | cons stage rest ih =>
      obtain ⟨hstage, hrest⟩ := List.forall_mem_cons.mp hstages
      rw [List.foldlM_cons] at hrun ⊢
      obtain ⟨next, hnext, hrun⟩ := bind_eq_ok.mp hrun
      obtain ⟨more, hmore, hperm⟩ := exists_run_of_perm hstage hperm hnext
      rw [hmore, ok_bind]
      exact ih hrest hperm (nodup_of_run hdistinct hnext) hrun

end Stage

namespace Query

variable {present : Present} {front back : List Term} {t : Term} {q : Query}

/-- A query sorts by URL where one of its terms asks for that. -/
theorem exists_stages (hq : ofTerms .builtin present (front ++ t :: back) = .ok q)
    (ht : t.AsksFor "url") (hfront : ∀ u ∈ front, u.action ≠ "limit") :
    ∃ first last, q.stages = first ++ .sort .byUrl :: last ∧
      ∀ stage ∈ first, ∀ n, stage ≠ .limit n := by
  obtain ⟨-, rfl⟩ := ofTerms_eq_ok_iff.mp hq
  have hurl : Registry.builtin.stage? present t = some (.sort .byUrl) :=
    Registry.stage?_eq_some_iff.mpr (Registry.compile_byUrl ht present)
  refine ⟨front.filterMap (Registry.builtin.stage? present),
    back.filterMap (Registry.builtin.stage? present), ?_, ?_⟩
  · rw [List.filterMap_append, List.filterMap_cons_some hurl]
  · rintro stage hstage n rfl
    obtain ⟨u, hu, hcompile⟩ := List.mem_filterMap.mp hstage
    obtain ⟨-, horder⟩ | ⟨hlimit, -⟩ | ⟨test, htest, -⟩ :=
      Registry.compile_builtin (Registry.stage?_eq_some_iff.mp hcompile)
    · obtain ⟨o, -, ho⟩ := Action.exists_order horder
      cases ho
    · exact hfront u hu hlimit
    · cases htest

theorem run_eq_ok_of_perm (hq : ofTerms .builtin present (front ++ t :: back) = .ok q)
    (ht : t.AsksFor "url") (hfront : ∀ u ∈ front, u.action ≠ "limit")
    (hperm : bookmarks.Perm others) (hdistinct : (bookmarks.map (·.locator)).Nodup)
    (hrun : q.run zone bookmarks = .ok found) : q.run zone others = .ok found := by
  obtain ⟨first, last, hstages, hfirst⟩ := exists_stages hq ht hfront
  rw [run, hstages, List.foldlM_append] at hrun ⊢
  obtain ⟨next, hnext, hrun⟩ := bind_eq_ok.mp hrun
  obtain ⟨⟨more, hmore, hperm⟩, hnodup⟩ := Stage.runAll_of_perm hfirst hperm hdistinct hnext
  rw [hmore, ok_bind]
  rw [List.foldlM_cons] at hrun ⊢
  obtain ⟨sorted, hsorted, hrun⟩ := bind_eq_ok.mp hrun
  obtain ⟨hkeys, rfl⟩ := SortOrder.sort_eq_ok_iff.mp hsorted
  have hothers : Stage.run zone (.sort .byUrl) more =
      .ok (SortOrder.byUrl.arrange SortOrder.byUrl.field.key? next) :=
    SortOrder.sort_eq_ok_iff.mpr ⟨fun b hb => hkeys b (hperm.mem_iff.mpr hb),
      SortOrder.arrange_byUrl_of_perm hperm hnodup⟩
  rw [hothers, ok_bind]
  exact hrun

/-! ## Stores -/

open Operation Store RecordDirectory

section

variable {r again : RecordDirectory Bookmark Locator} {p : Path}

theorem all_perm (hr : IsSoundAt p r) (hagain : IsSoundAt p again)
    (hsame : ∀ l, get again l = get r l) : (all again).Perm (all r) :=
  (Entries.perm_of_value?_eq hr.entries.distinct hagain.entries.distinct hsame).map _

theorem nodup_all (hr : IsSoundAt p r) : ((all r).map (·.locator)).Nodup := by
  have hkeys : (all r).map (·.locator) = Entries.keys r.entries := by
    rw [all, Entries.keys]
    exact List.map_map.trans (List.map_congr_left fun e he => hr.entries.keyed e he)
  rw [hkeys]
  exact hr.entries.distinct

end

/-- A mirrored directory is opened again with the bookmarks that it had. -/
theorem exists_reopened {used : Locator → Prop} {l : Location}
    {r : RecordDirectory Bookmark Locator} (hfaithful : Faithful (Keeps used))
    (h : Mirrors (Keeps used) l r) (clock : Nat → Instant) (refusal? : FileStep → Option String) :
    ∃ again, ((load clock r.path).execute { r.disk with refusal? }).1 = .ok again ∧
      ∀ key, get again key = get r key := by
  have hrefused : Mirrors (Keeps used) l { r with disk := { r.disk with refusal? } } :=
    h.of_agree ⟨rfl, .refl⟩
  obtain ⟨-, entries, hperm, hopened⟩ := (load_spec hfaithful hrefused clock).execute
  exact ⟨_, hopened, fun key => Entries.value?_of_perm h.distinct hperm⟩

/-- Whether a query gives the same for some bookmarks as for others. -/
def AnswersAlike (zone : Zone) (q : Query) (bookmarks others : List Bookmark) : Prop :=
  ∀ found, q.run zone bookmarks = .ok found ↔ q.run zone others = .ok found

/-- A query that sorts by URL before it cuts anything off gives the same for bookmarks in whatever
order they come, and before and after a store is opened again that then holds under each locator
what it held. So does every store that was filled with bookmarks in normal form. -/
theorem run_of_perm (hq : ofTerms .builtin present (front ++ t :: back) = .ok q)
    (ht : t.AsksFor "url") (hfront : ∀ u ∈ front, u.action ≠ "limit") (zone : Zone) :
    (∀ {bookmarks others : List Bookmark}, bookmarks.Perm others →
      (bookmarks.map (·.locator)).Nodup → q.AnswersAlike zone bookmarks others) ∧
    (∀ {clock : Nat → Instant} {p : Path} {d : Disk} {opened : RecordDirectory Bookmark Locator},
      ((load clock p).execute d).1 = .ok opened → ∀ turns later refusal? again,
        let r := Store.run turns opened
        ((load later p).execute { r.disk with refusal? }).1 = .ok again →
        (∀ l, get again l = get r l) → q.AnswersAlike zone (all r) (all again)) ∧
    ∀ {d : Disk} {p : Path} {l : Location} {turns : List Turn}, d.locate p = .ok l →
      d.files.isDirectory l = true → d.files.names l = [] →
      (∀ turn ∈ turns, turn.IsCanonical) →
      (∀ k ∈ locatorsOf turns, ∀ m ∈ locatorsOf turns,
        Digest.ofText k.url = Digest.ofText m.url → k = m) → ∀ clock,
      ∃ opened, ((load clock p).execute d).1 = .ok opened ∧ ∀ later refusal?,
        let r := Store.run turns opened
        ∃ again, ((load later p).execute { r.disk with refusal? }).1 = .ok again ∧
          q.AnswersAlike zone (all r) (all again) := by
  have hperm : ∀ {bookmarks others : List Bookmark}, bookmarks.Perm others →
      (bookmarks.map (·.locator)).Nodup → q.AnswersAlike zone bookmarks others := by
    intro bookmarks others hperm hdistinct found
    have hothers := (hperm.map (·.locator)).nodup_iff.mp hdistinct
    exact ⟨run_eq_ok_of_perm hq ht hfront hperm hdistinct,
      run_eq_ok_of_perm hq ht hfront hperm.symm hothers⟩
  have hreopened : ∀ {clock : Nat → Instant} {p : Path} {d : Disk}
      {opened : RecordDirectory Bookmark Locator}, ((load clock p).execute d).1 = .ok opened →
      ∀ turns later refusal? again,
        let r := Store.run turns opened
        ((load later p).execute { r.disk with refusal? }).1 = .ok again →
        (∀ l, get again l = get r l) → q.AnswersAlike zone (all r) (all again) := by
    intro clock p d opened hopened turns later refusal? again r hagain hsame
    have hr : IsSoundAt p r :=
      run_isSoundAt ((load_isSoundAt clock p d).execute.1 opened hopened) turns
    have hsound : IsSoundAt p again := (load_isSoundAt later p _).execute.1 again hagain
    exact hperm (all_perm hr hsound hsame).symm (nodup_all hr)
  refine ⟨hperm, hreopened, ?_⟩
  intro d p l turns hlocated hdirectory hempty hturns hdigest clock
  have hfaithful : Faithful (Keeps (· ∈ locatorsOf turns)) :=
    faithful_keeps fun k m hk hm => hdigest k hk m hm
  obtain ⟨opened, hopened, rfl, hstart⟩ :=
    exists_load_of_empty hfaithful hlocated hdirectory hempty clock
  obtain ⟨hmirrors, hpath⟩ := run_mirrors hfaithful hstart hturns fun key hkey => hkey
  refine ⟨opened, hopened, fun later refusal? => ?_⟩
  obtain ⟨again, hagain, hsame⟩ := exists_reopened hfaithful hmirrors later refusal?
  rw [hpath] at hagain
  exact ⟨again, hagain, hreopened hopened turns later refusal? again hagain hsame⟩

def firstTagged : Query :=
  ⟨[⟨"tagged", "lean"⟩, ⟨"by", "url"⟩, ⟨"limit", "1"⟩],
    [.keep (.tag "lean"), .sort .byUrl, .limit 1]⟩

theorem run_of_perm_firstTagged :
    ofTerms .builtin samplePresent [⟨"tagged", "lean"⟩, ⟨"by", "url"⟩, ⟨"limit", "1"⟩] =
        .ok firstTagged ∧
      firstTagged.AnswersAlike .utc samplePages samplePages.reverse ∧
      (∃ opened again : RecordDirectory Bookmark Locator,
        ((load (fun _ => noon) (.ofParts ["shelf"])).execute sampleDisk).1 = .ok opened ∧
        (∀ l, get again l = get (Store.run sampleTurns opened) l) ∧
        firstTagged.AnswersAlike .utc (all (Store.run sampleTurns opened)) (all again)) ∧
      ∃ opened, ((load (fun _ => noon) (.ofParts ["shelf"])).execute sampleDisk).1 = .ok opened ∧
        ∀ later refusal?,
          let r := Store.run sampleTurns opened
          ∃ again, ((load later (.ofParts ["shelf"])).execute { r.disk with refusal? }).1 =
              .ok again ∧
            firstTagged.AnswersAlike .utc (all r) (all again) := by
  have hquery : ofTerms .builtin samplePresent
      ([⟨"tagged", "lean"⟩] ++ ⟨"by", "url"⟩ :: [⟨"limit", "1"⟩]) = .ok firstTagged := rfl
  obtain ⟨hperm, hreopened, hfilled⟩ :=
    run_of_perm hquery ⟨.inl rfl, rfl⟩ (by decide) .utc
  have hfaithful : Faithful (Keeps IsSamplePage) := faithful_keeps fun _ _ => apart_of_isSamplePage
  refine ⟨hquery, hperm (List.reverse_perm _).symm (by decide), ?_, ?_⟩
  · obtain ⟨opened, hopened, hpath, hstart⟩ := exists_load_of_empty hfaithful (d := sampleDisk)
      (p := .ofParts ["shelf"]) (l := ["shelf"]) rfl rfl rfl (fun _ => noon)
    obtain ⟨hmirrors, hrunPath⟩ := run_mirrors hfaithful hstart sampleTurns_areCanonical
      isSamplePage_of_sampleTurns
    obtain ⟨again, hagain, hsame⟩ := exists_reopened hfaithful hmirrors (fun _ => noon) fun _ => none
    rw [hrunPath, hpath] at hagain
    exact ⟨opened, again, hopened, hsame, hreopened hopened sampleTurns _ _ again hagain hsame⟩
  · exact hfilled (d := sampleDisk) (p := .ofParts ["shelf"]) (l := ["shelf"]) rfl rfl rfl
      sampleTurns_areCanonical (fun k hk m hm => apart_of_isSamplePage
        (isSamplePage_of_sampleTurns k hk) (isSamplePage_of_sampleTurns m hm)) (fun _ => noon)

/-! ## Fractions of a second

Files keep no fraction of a second. Of two pages made in one second the one made later comes first as
long as the store is open, and once it is opened again the one whose URL comes first.
-/

theorem arrange_pair {α : Type} {o : SortOrder} {key : α → Option SortKey} {x y : α}
    {k m : SortKey} (hx : key x = some k) (hy : key y = some m) :
    o.arrange key [x, y] =
      if (o.comparing (some k) (some m)).isLE then [x, y] else [y, x] := by
  simp [SortOrder.arrange, hx, hy, List.mergeSort, List.merge]

def latestFirst : Query :=
  ⟨[⟨"by", "url"⟩, ⟨"by", "most-recently-created"⟩], [.sort .byUrl, .sort .mostRecentlyCreated]⟩

theorem urls_of_latestFirst {bookmarks : List Bookmark} {t u : Instant}
    (hpages : bookmarks.map (fun b => (b.url, b.created)) =
      [("http://a.org/", some t), ("http://b.org/", some u)]) :
    (latestFirst.run .utc bookmarks).toOption.map (·.map Bookmark.url) =
      some (if (compare u t).isLE then ["http://a.org/", "http://b.org/"]
        else ["http://b.org/", "http://a.org/"]) := by
  obtain ⟨x, rest, rfl, hx, hrest⟩ := List.map_eq_cons_iff.mp hpages
  obtain ⟨y, none, rfl, hy, hnone⟩ := List.map_eq_cons_iff.mp hrest
  obtain rfl := List.map_eq_nil_iff.mp hnone
  obtain ⟨hxUrl, hxCreated⟩ := Prod.mk.inj hx
  obtain ⟨hyUrl, hyCreated⟩ := Prod.mk.inj hy
  have hkeys : SortOrder.byUrl.field.key? x = some (.url "http://a.org/") ∧
      SortOrder.byUrl.field.key? y = some (.url "http://b.org/") :=
    ⟨congrArg (fun s => some (SortKey.url s)) hxUrl, congrArg (fun s => some (SortKey.url s)) hyUrl⟩
  have hmoments : SortOrder.mostRecentlyCreated.field.key? x = some (.moment t) ∧
      SortOrder.mostRecentlyCreated.field.key? y = some (.moment u) :=
    ⟨congrArg (Option.map SortKey.moment) hxCreated, congrArg (Option.map SortKey.moment) hyCreated⟩
  have hurls : SortOrder.byUrl.sort [x, y] = .ok [x, y] := by
    refine SortOrder.sort_eq_ok_iff.mpr ⟨fun _ _ => rfl, ?_⟩
    rw [arrange_pair hkeys.1 hkeys.2, if_pos (by decide +kernel)]
  have hcreated : SortOrder.mostRecentlyCreated.sort [x, y] =
      .ok (if (compare u t).isLE then [x, y] else [y, x]) := by
    refine SortOrder.sort_eq_ok_iff.mpr ⟨fun _ _ => rfl, ?_⟩
    rw [arrange_pair hmoments.1 hmoments.2]
    rfl
  simp only [run, latestFirst, List.foldlM_cons, Stage.run, hurls, hcreated, ok_bind,
    List.foldlM_nil]
  split <;> simp [Except.toOption, pure, Except.pure, hxUrl, hyUrl]

def pageMadeAt (url : String) (t : Instant) : Bookmark := { samplePage url with created := some t }

def additionAt (url : String) (t : Instant) : Turn :=
  ⟨.add (pageMadeAt url t), fun _ => noon, fun _ => none⟩

/-- Two pages added to a store at noon, with the times at which they were made. -/
def addedPages (t u : Instant) : List Turn :=
  [additionAt "http://a.org/" t, additionAt "http://b.org/" u]

def shelfStore : RecordDirectory Bookmark Locator := ⟨sampleDisk, .ofParts ["shelf"], "url", []⟩

def tenthPastNoon : Instant := ⟨63713476800100000, by decide⟩

def nearlySecondPastNoon : Instant := ⟨63713476800900000, by decide⟩

theorem pageMadeAt_isCanonical {url : String} (hurl : Locator.of url = .ok ⟨url⟩) :
    (pageMadeAt url noon).IsCanonical :=
  (samplePage_isCanonical hurl).withTimes (fun _ ht => Option.some.inj ht ▸ noon_isRecordable) nofun

theorem addedPages_areCanonical : ∀ turn ∈ addedPages noon noon, turn.IsCanonical := by
  have hfirst : (pageMadeAt "http://a.org/" noon).IsCanonical := pageMadeAt_isCanonical rfl
  have hsecond : (pageMadeAt "http://b.org/" noon).IsCanonical := pageMadeAt_isCanonical rfl
  simp only [addedPages, additionAt, List.forall_mem_cons]
  refine ⟨⟨fun _ => noon_isRecordable, ?_⟩, ⟨fun _ => noon_isRecordable, ?_⟩, nofun⟩
  · exact fun b hb => Option.some.inj hb ▸ hfirst
  · exact fun b hb => Option.some.inj hb ▸ hsecond

/-- What adding a bookmark leaves on the disk depends on its record alone. -/
theorem disk_of_add {r : RecordDirectory Bookmark Locator} {b stored : Bookmark} {now : Instant}
    {text : String} (hstored : changed b (missingTimes b (get r b.locator) now) = .ok stored)
    (htext : recordText stored = .ok text) :
    (Store.add now b).Ends r fun _ after => after.path = r.path ∧
      after.disk = (r.disk.store r.path (fileName stored.url) temporaryName text.toUTF8).2 := by
  have hadd : (RecordDirectory.add stored).Ends r fun _ after => after.path = r.path ∧
      after.disk = (r.disk.store r.path (fileName stored.url) temporaryName text.toUTF8).2 := by
    refine ends_current_bind.mpr (ends_settled_bind ?_ ?_)
    · intro content hcontent
      obtain rfl := Except.ok.inj (htext.symm.trans hcontent)
      refine ends_onDisk_bind ?_ ?_
      · intro u d hrun
        exact ends_change_bind.mpr (ends_report.mpr ⟨rfl, (congrArg Prod.snd hrun).symm⟩)
      · intro fault d hrun
        exact ⟨rfl, (congrArg Prod.snd hrun).symm⟩
    · intro fault hfault
      cases htext.symm.trans hfault
  refine ends_current_bind.mpr ?_
  simp only [hstored]
  refine ends_settled_ok_bind.mpr (ends_bind hadd ?_ ?_)
  · exact fun _ after hafter => ends_report_bind (ends_pure.mpr hafter)
  · exact fun _ after hafter => hafter

/-- The page as it is stored. -/
def storedPage (url : String) (t : Instant) : Bookmark :=
  { pageMadeAt url t with modified := some noon }

theorem recordText_storedPage {t u : Instant} (htext : t.recordText = u.recordText) (url : String) :
    recordText (storedPage url t) = recordText (storedPage url u) := by
  have hrecord : (storedPage url t).toRecord = (storedPage url u).toRecord := by
    simp only [Bookmark.toRecord, storedPage, pageMadeAt, Bookmark.memberAt, htext]
    rfl
  simp only [recordText, Record.encode, hrecord]

theorem after_additionAt (r : RecordDirectory Bookmark Locator) {url text : String} {t : Instant}
    (htext : recordText (storedPage url t) = .ok text) :
    ((additionAt url t).after r).path = r.path ∧ ((additionAt url t).after r).disk =
      (({ r.disk with refusal? := fun _ => none } : Disk).store r.path (fileName url) temporaryName
        text.toUTF8).2 := by
  have hadded : ∀ s : RecordDirectory Bookmark Locator,
      let after := ((Store.add noon (pageMadeAt url t)).execute s).2.state
      after.path = s.path ∧
        after.disk = (s.disk.store s.path (fileName url) temporaryName text.toUTF8).2 :=
    fun s => (disk_of_add (rfl : changed _ _ = .ok (storedPage url t)) htext).execute
  simp only [additionAt, Turn.after]
  exact hadded _

/-- What is not kept of a moment is not in the files. -/
theorem disk_addedPages (r : RecordDirectory Bookmark Locator) {t u v w : Instant}
    {first second : String} (hfirst : recordText (storedPage "http://a.org/" v) = .ok first)
    (hsecond : recordText (storedPage "http://b.org/" w) = .ok second)
    (ht : t.recordText = v.recordText) (hu : u.recordText = w.recordText) :
    (Store.run (addedPages t u) r).disk = (Store.run (addedPages v w) r).disk := by
  have hrun : ∀ t u, Store.run (addedPages t u) r =
      (additionAt "http://b.org/" u).after ((additionAt "http://a.org/" t).after r) := by
    simp only [Store.run, addedPages, List.foldl_cons, List.foldl_nil, implies_true]
  obtain ⟨hkeptPath, hkeptDisk⟩ := after_additionAt r hfirst
  obtain ⟨hpath, hdisk⟩ := after_additionAt r ((recordText_storedPage ht _).trans hfirst)
  rw [hrun, hrun, (after_additionAt _ hsecond).2, hkeptPath, hkeptDisk,
    (after_additionAt _ ((recordText_storedPage hu _).trans hsecond)).2, hpath, hdisk]

/-- Two pages made in one second change places when the store that has them is opened again. -/
theorem latestFirst_differs_when_reopened :
    ofTerms .builtin samplePresent [⟨"by", "url"⟩, ⟨"by", "most-recently-created"⟩] =
        .ok latestFirst ∧
      ∃ opened again : RecordDirectory Bookmark Locator,
        ((load (fun _ => noon) (.ofParts ["shelf"])).execute sampleDisk).1 = .ok opened ∧
        let r := Store.run (addedPages tenthPastNoon nearlySecondPastNoon) opened
        ((load (fun _ => noon) (.ofParts ["shelf"])).execute
          { r.disk with refusal? := fun _ => none }).1 = .ok again ∧
        (latestFirst.run .utc (all r)).toOption.map (·.map Bookmark.url) =
          some ["http://b.org/", "http://a.org/"] ∧
        (latestFirst.run .utc (all again)).toOption.map (·.map Bookmark.url) =
          some ["http://a.org/", "http://b.org/"] := by
  have hquery : ofTerms .builtin samplePresent
      ([] ++ ⟨"by", "url"⟩ :: [⟨"by", "most-recently-created"⟩]) = .ok latestFirst := rfl
  have hfaithful : Faithful (Keeps IsSamplePage) := faithful_keeps fun _ _ => apart_of_isSamplePage
  have hempty : Mirrors (Keeps IsSamplePage) ["shelf"] shelfStore :=
    ⟨rfl, rfl, .refl _, nofun, List.nodup_nil⟩
  obtain ⟨-, entries, hnone, hopened⟩ := (load_spec hfaithful hempty fun _ => noon).execute
  obtain rfl := List.perm_nil.mp hnone
  have hused : ∀ key ∈ locatorsOf (addedPages noon noon), IsSamplePage key := by
    simp [locatorsOf, addedPages, additionAt, Step.bookmark?, pageMadeAt, samplePage, IsSamplePage]
  obtain ⟨hmirrors, hpath⟩ := run_mirrors hfaithful hempty addedPages_areCanonical hused
  obtain ⟨again, hagain, hsame⟩ := exists_reopened hfaithful hmirrors (fun _ => noon) fun _ => none
  rw [hpath] at hagain
  have hsound : IsSoundAt (.ofParts ["shelf"]) (Store.run (addedPages noon noon) shelfStore) :=
    run_isSoundAt ((load_isSoundAt (fun _ => noon) _ _).execute.1 shelfStore hopened) _
  have hperm := all_perm hsound ((load_isSoundAt (fun _ => noon) _ _).execute.1 again hagain) hsame
  have htexts : (recordText (storedPage "http://a.org/" noon)).toOption.isSome ∧
      (recordText (storedPage "http://b.org/" noon)).toOption.isSome := by decide +kernel
  obtain ⟨first, hfirst⟩ := Option.isSome_iff_exists.mp htexts.1
  obtain ⟨second, hsecond⟩ := Option.isSome_iff_exists.mp htexts.2
  rw [← disk_addedPages (t := tenthPastNoon) (u := nearlySecondPastNoon) shelfStore
    (toOption_eq_some.mp hfirst) (toOption_eq_some.mp hsecond) (by decide +kernel)
    (by decide +kernel)] at hagain
  have hwhole : (latestFirst.run .utc (all (Store.run (addedPages noon noon)
      shelfStore))).toOption.map (·.map Bookmark.url) = some ["http://a.org/", "http://b.org/"] :=
    urls_of_latestFirst (t := noon) (u := noon) (by decide +kernel)
  obtain ⟨found, hfound, hurls⟩ := Option.map_eq_some_iff.mp hwhole
  have hlast := run_eq_ok_of_perm hquery ⟨.inl rfl, rfl⟩ (by decide) hperm.symm (nodup_all hsound)
    (toOption_eq_some.mp hfound)
  refine ⟨hquery, shelfStore, again, hopened, hagain, ?_, ?_⟩
  · exact urls_of_latestFirst (t := tenthPastNoon) (u := nearlySecondPastNoon) (by decide +kernel)
  · rw [hlast]
    exact congrArg some hurls

end Query

end LinkShelf
