import LinkShelf.Proofs.Store.Steps

/-!
Durability: after any steps, whichever of their writes fail, the record files of the store's
directory are those of the bookmarks in memory, and opening the directory gives the same bookmarks.
-/

namespace LinkShelf.Store

open RecordDirectory

/-- What is asked of a store. -/
inductive Step where
  | add (b : Bookmark)
  | remove (l : Locator)
  | removeSame (b : Bookmark)
  | replace (old : Locator) (b : Bookmark)
  | visit (l : Locator)
  | reopen

/-- The bookmark that a step puts into the store. -/
def Step.bookmark? : Step → Option Bookmark
  | .add b => some b
  | .replace _ b => some b
  | _ => none

/-- A step, with the moments that the clock gives and the reasons for which the device refuses what
is done to files meanwhile. -/
structure Turn where
  step : Step
  clock : Nat → Instant
  refusal? : FileStep → Option String

namespace Turn

/-- The store after a turn. One that is not opened again is left as it was. -/
def after (turn : Turn) (r : RecordDirectory Bookmark Locator) :
    RecordDirectory Bookmark Locator :=
  let r := { r with disk := { r.disk with refusal? := turn.refusal? } }
  let now := turn.clock 0
  match turn.step with
  | .add b => ((Store.add now b).execute r).2.state
  | .remove l => ((Store.remove l).execute r).2.state
  | .removeSame b => ((Store.removeSame b).execute r).2.state
  | .replace old b => ((Store.replace now old b).execute r).2.state
  | .visit l => ((Store.visit now l).execute r).2.state
  | .reopen =>
    match (load turn.clock r.path).execute r.disk with
    | (.ok opened, _) => opened
    | (.error _, left) => { r with disk := left.state }

/-- Whether a turn is one of a clock that gives whole seconds, and of a bookmark in normal form. -/
structure IsCanonical (turn : Turn) : Prop where
  clock : ∀ n, (turn.clock n).IsRecordable
  bookmark : ∀ b, turn.step.bookmark? = some b → b.IsCanonical

end Turn

/-- The store after some turns. -/
def run (turns : List Turn) (r : RecordDirectory Bookmark Locator) :
    RecordDirectory Bookmark Locator :=
  turns.foldl (fun r turn => turn.after r) r

theorem run_append (turns more : List Turn) (r : RecordDirectory Bookmark Locator) :
    run (turns ++ more) r = run more (run turns r) :=
  List.foldl_append

/-- The locators of the bookmarks that some turns put into a store. -/
def locatorsOf (turns : List Turn) : List Locator :=
  turns.filterMap fun turn => turn.step.bookmark?.map (·.locator)

variable {used : Locator → Prop} {l : Location} {r : RecordDirectory Bookmark Locator}

theorem after_reopen (hfaithful : Faithful (Keeps used)) (h : Mirrors (Keeps used) l r)
    (clock : Nat → Instant) (refusal? : FileStep → Option String) :
    ∃ entries : Entries Locator Bookmark, entries.Perm r.entries ∧
      Turn.after ⟨.reopen, clock, refusal?⟩ r =
        ⟨{ r.disk with refusal? }, r.path, "url", entries⟩ := by
  have hrefused : Mirrors (Keeps used) l { r with disk := { r.disk with refusal? } } :=
    h.of_agree ⟨rfl, .refl⟩
  obtain ⟨-, entries, hperm, hopened⟩ := (load_spec hfaithful hrefused clock).execute
  refine ⟨entries, hperm, ?_⟩
  simp only [Turn.after]
  split
  · next opened left hrun =>
      rw [hrun] at hopened
      exact Except.ok.inj hopened
  · next fault left hrun =>
      rw [hrun] at hopened
      cases hopened

/-- One turn keeps the directory a mirror of the bookmarks. -/
theorem after_mirrors (hfaithful : Faithful (Keeps used)) (h : Mirrors (Keeps used) l r)
    {turn : Turn} (hturn : turn.IsCanonical)
    (hused : ∀ b, turn.step.bookmark? = some b → used b.locator) :
    Mirrors (Keeps used) l (turn.after r) ∧ (turn.after r).path = r.path := by
  obtain ⟨step, clock, refusal?⟩ := turn
  have hrefused : Mirrors (Keeps used) l { r with disk := { r.disk with refusal? } } :=
    h.of_agree ⟨rfl, .refl⟩
  have hnow := hturn.clock 0
  cases step with
  | add b =>
      have hadd := (add_spec hfaithful hrefused (hturn.bookmark b rfl) (hused b rfl) hnow).execute
      exact ⟨hadd.1, hadd.2.1⟩
  | remove key =>
      have hremove := (remove_spec hfaithful hrefused key).execute
      exact ⟨hremove.1, hremove.2.1⟩
  | removeSame b =>
      have hremove := (removeSame_spec hfaithful hrefused b).execute
      exact ⟨hremove.1, hremove.2.1⟩
  | replace old b =>
      exact (replace_mirrors hfaithful hrefused old (hturn.bookmark b rfl) (hused b rfl)
        hnow).execute
  | visit key => exact (visit_mirrors hfaithful hrefused key hnow).execute
  | reopen =>
      obtain ⟨entries, hperm, hafter⟩ := after_reopen hfaithful h clock refusal?
      rw [hafter]
      exact ⟨hrefused.of_perm hperm "url", rfl⟩

/-- So do any turns. -/
theorem run_mirrors (hfaithful : Faithful (Keeps used)) (h : Mirrors (Keeps used) l r)
    {turns : List Turn} (hturns : ∀ turn ∈ turns, turn.IsCanonical)
    (hused : ∀ key ∈ locatorsOf turns, used key) :
    Mirrors (Keeps used) l (run turns r) ∧ (run turns r).path = r.path := by
  induction turns generalizing r with
  | nil => exact ⟨h, rfl⟩
  | cons turn rest ih =>
      obtain ⟨hafter, hpath⟩ := after_mirrors hfaithful h (hturns turn (by simp)) fun b hb =>
        hused _ (List.mem_filterMap.mpr ⟨turn, by simp, by rw [hb]; rfl⟩)
      have hrest := ih hafter (fun other hother => hturns other (by simp [hother]))
        fun key hkey => by
          obtain ⟨other, hother, hlocator⟩ := List.mem_filterMap.mp hkey
          exact hused key (List.mem_filterMap.mpr ⟨other, by simp [hother], hlocator⟩)
      exact ⟨hrest.1, hrest.2.trans hpath⟩

/-- Whether the record files at a path are those of the bookmarks in memory: one for each, with the
name that the digest of its locator gives and its record in it; and whether opening the directory
gives the same bookmarks. -/
structure IsDurable (p : Path) (r : RecordDirectory Bookmark Locator) : Prop where
  files : ((r.disk.names p).filter isRecordName).Perm (r.entries.map fun e => fileName e.1.url)
  distinct : (r.entries.map fun e => fileName e.1.url).Nodup
  records : ∀ e ∈ r.entries, e.2.locator = e.1 ∧ ∃ text, recordText e.2 = .ok text ∧
    r.disk.read (p.child (fileName e.1.url)) = .ok text.toUTF8
  reopens : ∀ keyName, ∃ fresh : RecordDirectory Bookmark Locator,
    ((RecordDirectory.load p keyName).execute r.disk).1 = .ok fresh ∧
      ∀ key, fresh.entries.value? key = r.entries.value? key

theorem isDurable_of_mirrors (hfaithful : Faithful (Keeps used)) (h : Mirrors (Keeps used) l r) :
    IsDurable r.path r := by
  have hfiles : (r.entries.map fun e => fileName e.1.url) =
      (Entries.keys r.entries).map (nameOf Bookmark) := by
    rw [Entries.keys, List.map_map]
    rfl
  refine ⟨?_, ?_, ?_, ?_⟩
  · simp only [Disk.names, h.located, hfiles]
    exact h.names
  · rw [hfiles]
    exact h.nodup_names hfaithful
  · intro e he
    obtain ⟨-, hkey, hchild, text, htext, hnode⟩ := h.recorded e he
    have hread : r.disk.read (r.path.child (nameOf Bookmark e.1)) = .ok text.toUTF8 := by
      simp only [Disk.read, hchild, ok_bind, FileSystem.read, hnode]
    exact ⟨hkey, text, htext, hread⟩
  · intro keyName
    obtain ⟨-, found, hfound, hfresh⟩ := (RecordDirectory.load_spec hfaithful h keyName).execute
    exact ⟨_, hfresh, fun key => Entries.value?_of_perm h.distinct hfound⟩

/-- An empty directory is opened as a mirror of no bookmarks. -/
theorem exists_load_of_empty (hfaithful : Faithful (Keeps used)) {d : Disk} {p : Path}
    (hlocated : d.locate p = .ok l) (hdirectory : d.files.isDirectory l = true)
    (hempty : d.files.names l = []) (clock : Nat → Instant) :
    ∃ opened, ((load clock p).execute d).1 = .ok opened ∧ opened.path = p ∧
      Mirrors (Keeps used) l opened := by
  have hstart : Mirrors (Keeps used) l ⟨d, p, "url", []⟩ :=
    ⟨hlocated, hdirectory, by simp [hempty, Entries.keys], by simp, by simp [Entries.keys]⟩
  obtain ⟨-, entries, hperm, hopened⟩ := (load_spec hfaithful hstart clock).execute
  exact ⟨_, hopened, rfl, hstart.of_perm hperm "url"⟩

/-- Every state that some turns lead to from the opening of an empty directory is durable, if no two
locators of the bookmarks put into the store have one digest. -/
theorem run_isDurable {d : Disk} {p : Path} {l : Location} {turns : List Turn}
    (hlocated : d.locate p = .ok l) (hdirectory : d.files.isDirectory l = true)
    (hempty : d.files.names l = []) (hturns : ∀ turn ∈ turns, turn.IsCanonical)
    (hdigest : ∀ k ∈ locatorsOf turns, ∀ m ∈ locatorsOf turns,
      Digest.ofText k.url = Digest.ofText m.url → k = m) (clock : Nat → Instant) :
    ∃ opened, ((load clock p).execute d).1 = .ok opened ∧ IsDurable p (run turns opened) := by
  have hfaithful : Faithful (Keeps (· ∈ locatorsOf turns)) :=
    faithful_keeps fun k m hk hm => hdigest k hk m hm
  obtain ⟨opened, hopened, rfl, hstart⟩ :=
    exists_load_of_empty hfaithful hlocated hdirectory hempty clock
  obtain ⟨hmirrors, hpath⟩ := run_mirrors hfaithful hstart hturns fun key hkey => hkey
  have hdurable := isDurable_of_mirrors hfaithful hmirrors
  rw [hpath] at hdurable
  exact ⟨opened, hopened, hdurable⟩

/-! Two pages: the second is refused at first and then takes the place of the other one. -/

def noon : Instant := ⟨63713476800000000, by decide⟩

def samplePage (url : String) : Bookmark where
  locator := ⟨url⟩
  title := .text "Lean"
  notes := .text ""
  image := .null
  tags := .names (.ofList ["lean"])
  color := .text "#00ff00"
  created := none
  modified := none
  lastVisited := none
  visitCount := .null

def sampleDisk : Disk := ⟨⟨[(["shelf"], .directory)]⟩, [], fun _ => none⟩

def refuseMoves : FileStep → Option String
  | .move _ _ => some "disk full"
  | _ => none

def sampleTurns : List Turn :=
  [⟨.add (samplePage "http://a.org/"), fun _ => noon, fun _ => none⟩,
    ⟨.add (samplePage "http://b.org/"), fun _ => noon, refuseMoves⟩,
    ⟨.visit ⟨"http://a.org/"⟩, fun _ => noon, fun _ => none⟩,
    ⟨.reopen, fun _ => noon, fun _ => none⟩,
    ⟨.replace ⟨"http://a.org/"⟩ (samplePage "http://b.org/"), fun _ => noon, fun _ => none⟩]

theorem samplePage_isCanonical {url : String} (hurl : Locator.of url = .ok ⟨url⟩) :
    (samplePage url).IsCanonical where
  url := hurl
  title := ⟨_, rfl⟩
  notes := ⟨_, rfl⟩
  image := .inl rfl
  tags := ⟨_, rfl, by decide⟩
  color := .inr ⟨_, rfl, by decide⟩
  created := nofun
  modified := nofun
  lastVisited := nofun
  visitCount := .inl rfl

theorem noon_isRecordable : noon.IsRecordable := ⟨by decide, by decide⟩

theorem sampleTurns_areCanonical : ∀ turn ∈ sampleTurns, turn.IsCanonical := by
  have hfirst : (samplePage "http://a.org/").IsCanonical := samplePage_isCanonical rfl
  have hsecond : (samplePage "http://b.org/").IsCanonical := samplePage_isCanonical rfl
  simp only [sampleTurns, List.forall_mem_cons]
  refine ⟨⟨fun _ => noon_isRecordable, ?_⟩, ⟨fun _ => noon_isRecordable, ?_⟩,
    ⟨fun _ => noon_isRecordable, nofun⟩, ⟨fun _ => noon_isRecordable, nofun⟩,
    ⟨fun _ => noon_isRecordable, ?_⟩, nofun⟩
  · exact fun b hb => Option.some.inj hb ▸ hfirst
  · exact fun b hb => Option.some.inj hb ▸ hsecond
  · exact fun b hb => Option.some.inj hb ▸ hsecond

def IsSamplePage (l : Locator) : Prop := l = ⟨"http://a.org/"⟩ ∨ l = ⟨"http://b.org/"⟩

theorem apart_of_isSamplePage {k m : Locator} (hk : IsSamplePage k) (hm : IsSamplePage m)
    (hdigest : Digest.ofText k.url = Digest.ofText m.url) : k = m := by
  have hdiffer : Digest.ofText "http://a.org/" ≠ Digest.ofText "http://b.org/" := by
    decide +kernel
  rcases hk with rfl | rfl <;> rcases hm with rfl | rfl
  · rfl
  · exact absurd hdigest hdiffer
  · exact absurd hdigest.symm hdiffer
  · rfl

theorem isSamplePage_of_sampleTurns : ∀ l ∈ locatorsOf sampleTurns, IsSamplePage l := by
  simp [locatorsOf, sampleTurns, Step.bookmark?, samplePage, IsSamplePage]

/-- One page is there when the directory is opened again, and then the other one. -/
theorem urls_of_sampleTurns {opened : RecordDirectory Bookmark Locator}
    (hopened : ((load (fun _ => noon) (.ofParts ["shelf"])).execute sampleDisk).1 = .ok opened) :
    (run sampleTurns opened).entries.map (·.1.url) = ["http://b.org/"] := by
  have hfaithful : Faithful (Keeps IsSamplePage) := faithful_keeps fun _ _ => apart_of_isSamplePage
  obtain ⟨other, hother, -, hstart⟩ := exists_load_of_empty hfaithful (d := sampleDisk)
    (p := .ofParts ["shelf"]) (l := ["shelf"]) rfl rfl rfl (fun _ => noon)
  obtain rfl := Except.ok.inj (hopened.symm.trans hother)
  have hfew : (sampleTurns.take 3).Sublist sampleTurns := List.take_sublist 3 sampleTurns
  have hmirrors := (run_mirrors hfaithful hstart
    (fun turn hturn => sampleTurns_areCanonical turn (hfew.subset hturn))
    (fun key hkey => isSamplePage_of_sampleTurns key ((hfew.filterMap _).subset hkey))).1
  have hone : (((load (fun _ => noon) (.ofParts ["shelf"])).execute sampleDisk).1.toOption.map
      fun opened => (run (sampleTurns.take 3) opened).entries.length) = some 1 := by
    decide +kernel
  have hlast : (((load (fun _ => noon) (.ofParts ["shelf"])).execute sampleDisk).1.toOption.map
      fun opened =>
        let r := run (sampleTurns.take 3) opened
        (run (sampleTurns.drop 4) ⟨{ r.disk with refusal? := fun _ => none }, r.path, "url",
          r.entries⟩).entries.map (·.1.url)) = some ["http://b.org/"] := by
    decide +kernel
  simp only [hopened, Except.toOption, Option.map_some, Option.some.injEq] at hone hlast
  obtain ⟨entries, hperm, hafter⟩ := after_reopen hfaithful hmirrors (fun _ => noon) fun _ => none
  obtain ⟨e, he⟩ := List.length_eq_one_iff.mp hone
  rw [he, List.perm_singleton, ← he] at hperm
  have hrun : run sampleTurns opened = run (⟨.reopen, fun _ => noon, fun _ => none⟩ ::
      sampleTurns.drop 4) (run (sampleTurns.take 3) opened) :=
    run_append (sampleTurns.take 3) _ opened
  rw [hrun, run, List.foldl_cons, hafter, hperm]
  exact hlast

theorem run_isDurable_sampleTurns :
    ∃ opened, ((load (fun _ => noon) (.ofParts ["shelf"])).execute sampleDisk).1 = .ok opened ∧
      (run sampleTurns opened).entries.map (·.1.url) = ["http://b.org/"] ∧
      IsDurable (.ofParts ["shelf"]) (run sampleTurns opened) := by
  obtain ⟨opened, hopened, hdurable⟩ := run_isDurable (d := sampleDisk) (p := .ofParts ["shelf"])
    (l := ["shelf"]) rfl rfl rfl sampleTurns_areCanonical
    (fun k hk m hm => apart_of_isSamplePage (isSamplePage_of_sampleTurns k hk)
      (isSamplePage_of_sampleTurns m hm)) (fun _ => noon)
  exact ⟨opened, hopened, urls_of_sampleTurns hopened, hdurable⟩

end LinkShelf.Store
