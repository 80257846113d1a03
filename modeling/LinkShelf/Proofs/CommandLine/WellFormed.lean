import LinkShelf.Proofs.Bookmark.Tags
import LinkShelf.Proofs.CommandLine.Timeline
import LinkShelf.Proofs.Store.Completion
import LinkShelf.Proofs.Store.Opening
import LinkShelf.Proofs.Url.Escapes

/-!
The fields of bookmarks over runs of the program. Main statement: whatever lies in a directory, and
whatever was asked of the program and failed, only well-formed bookmarks were written there, and a
store that is opened has only such bookmarks if their times could be written (`runs_keep_form`).
-/

namespace LinkShelf

namespace Color

/-- Whether a text is a number sign with six hexadecimal digits in lower case. -/
def IsNormal (s : String) : Prop :=
  ∃ digits : List Char, s.toList = '#' :: digits ∧ digits.length = 6 ∧
    ∀ c ∈ digits, c ∈ "0123456789abcdef".toList

theorem mem_of_isHexDigit {c : Char} (hc : Url.isHexDigit c = true) :
    c.toLower ∈ "0123456789abcdef".toList :=
  Url.forall_isHexDigit (P := fun c => c.toLower ∈ "0123456789abcdef".toList) (by decide) hc

theorem isNormal_of_read {s normal : String} (h : read s = .color normal) : IsNormal normal := by
  rw [read] at h
  split at h
  · cases h
  · dsimp only at h
    split at h
    · next hdigits =>
        cases h
        refine ⟨_, String.toList_ofList, by simpa using hdigits.1, ?_⟩
        intro c hc
        obtain ⟨digit, hdigit, rfl⟩ := List.mem_map.mp hc
        exact mem_of_isHexDigit (List.all_eq_true.mp hdigits.2 digit hdigit)
    · cases h

/-- A color in normal form is read as it is. -/
theorem read_of_isNormal {s : String} (h : IsNormal s) : read s = .color s := by
  obtain ⟨digits, hs, hlength, hdigits⟩ := h
  have hlower : ∀ c ∈ "0123456789abcdef".toList,
      Text.isBlank c = false ∧ Url.isHexDigit c = true ∧ c.toLower = c := by
    decide
  have hstrip : Text.strip s.toList = '#' :: digits := by
    rw [hs]
    refine Text.strip_of_forall (List.forall_mem_cons.mpr ⟨by decide, ?_⟩)
    exact fun c hc => (hlower c (hdigits c hc)).1
  have hall : digits.all Url.isHexDigit = true :=
    List.all_eq_true.mpr fun c hc => (hlower c (hdigits c hc)).2.1
  have hsame : digits.map Char.toLower = digits :=
    (List.map_congr_left fun c hc => (hlower c (hdigits c hc)).2.2).trans (List.map_id' digits)
  simp only [read, hstrip, digitsOf, hlength, hall, and_self, if_true, hsame]
  rw [← hs, String.ofList_toList]

/-- A color that is made of a value is in normal form. -/
theorem isNormal_of_ofJson {v color : Json} (h : ofJson v = .ok color) :
    color = .null ∨ ∃ s, color = .text s ∧ IsNormal s := by
  cases v with
  | null =>
      cases h
      exact .inl rfl
  | text s =>
      rw [ofJson] at h
      split at h
      · cases h
        exact .inl rfl
      · next normal hread =>
          cases h
          exact .inr ⟨normal, rfl, isNormal_of_read hread⟩
      · cases h
  | _ => cases h

end Color

namespace Bookmark

variable {b : Bookmark}

/-- Whether the tags, the color and the visit count of a bookmark are in normal form. -/
structure HasNormalFields (b : Bookmark) : Prop where
  tags : ∃ set, b.tags = .names set ∧
    ∀ tag ∈ set.names, tag ≠ "" ∧ Tag.normalize? tag = some tag
  color : b.color = .null ∨ ∃ s, b.color = .text s ∧ Color.IsNormal s
  visitCount : b.visitCount = .null ∨ ∃ n : Nat, b.visitCount = .int n

/-- Whether a bookmark has its times, and the other fields are in normal form. -/
structure IsWellFormed (b : Bookmark) : Prop extends b.HasNormalFields where
  created : b.created.isSome = true
  modified : b.modified.isSome = true

theorem ne_empty_of_normalize? {s tag : String} (h : Tag.normalize? s = some tag) : tag ≠ "" :=
  (Tag.normalize?_eq_some_iff.mp h).2

theorem hasNormalTags_of_ofJson {v : Json} {set : TagSet} (h : Tags.ofJson v = .ok set) :
    ∀ tag ∈ set.names, tag ≠ "" ∧ Tag.normalize? tag = some tag := by
  intro tag htag
  have hnormal := Tags.normalize?_of_mem_ofJson h htag
  exact ⟨ne_empty_of_normalize? hnormal, hnormal⟩

theorem hasNormalFields_of_ofRecord {record : Json} (h : ofRecord record = .ok b) :
    b.HasNormalFields := by
  have hcount := (isDecoded_of_ofRecord h).visitCount
  obtain ⟨url, f, hof, -⟩ := ofRecord_cases h
  obtain ⟨locator, set, color, -, hset, hcolor, -, rfl⟩ := of_cases hof
  exact ⟨⟨set, rfl, hasNormalTags_of_ofJson hset⟩, Color.isNormal_of_ofJson hcolor, hcount⟩

theorem HasNormalFields.visited {after : Bookmark} {now : Instant} (hb : b.HasNormalFields)
    (hvisited : b.visited now = .ok after) : after.HasNormalFields := by
  obtain rfl := Store.eq_of_visited hvisited
  refine ⟨hb.tags, hb.color, .inr ?_⟩
  obtain hnull | ⟨n, hn⟩ := hb.visitCount
  · rw [hnull]
    exact ⟨1, rfl⟩
  · rw [hn, nextVisit]
    split
    · exact ⟨1, rfl⟩
    · exact ⟨n + 1, rfl⟩

end Bookmark

namespace Store

open Bookmark

variable {b : Bookmark} {now : Instant} {clock : Nat → Instant}

theorem isStorable_of_hasNormalFields (hb : b.HasNormalFields) :
    IsStorable HasNormalFields IsWellFormed now b := by
  intro existing stored _ hstored
  rw [eq_of_changed hstored]
  exact ⟨⟨hb.tags, hb.color, hb.visitCount⟩, rfl, rfl⟩

theorem isCompletable_of_hasNormalFields :
    IsCompletable HasNormalFields IsWellFormed clock := by
  intro turn b updated hb hupdated
  rw [checked_eq_ok hupdated]
  exact isStorable_of_hasNormalFields ⟨hb.tags, hb.color, hb.visitCount⟩

theorem isFilled_of_hasNormalFields : IsFilled HasNormalFields IsWellFormed clock where
  completed := isCompletable_of_hasNormalFields
  kept hb := hb.toHasNormalFields
  full hb hcreated hmodified := ⟨hb, hcreated, hmodified⟩

end Store

namespace Command

open Bookmark

variable {b : Bookmark} {now : Instant}

theorem normalize?_of_mem_tagNames {words : List String} {tag : String}
    (htag : tag ∈ tagNames words) : tag ≠ "" ∧ Tag.normalize? tag = some tag := by
  obtain ⟨word, -, hpiece⟩ := List.mem_flatMap.mp htag
  obtain ⟨piece, -, htag⟩ := List.mem_filterMap.mp hpiece
  exact ⟨ne_empty_of_normalize? htag, Tag.normalize?_of_normalize? htag⟩

/-- Fields on the command line are put in normal form, and others are as they were. -/
theorem hasNormalFields_of_bookmarkFor {url : String} {f : GivenFields}
    {existing : Option Bookmark}
    (hexisting : ∀ other, existing = some other → other.HasNormalFields)
    (hb : bookmarkFor url f existing = .ok b) : b.HasNormalFields := by
  cases existing with
  | some other =>
      have hother := hexisting other rfl
      obtain ⟨title, notes, tags, color, rfl, -, -, htags, hcolor⟩ := bookmarkFor_some hb
      refine ⟨?_, ?_, hother.visitCount⟩
      · obtain rfl | ⟨words, rfl⟩ := htags
        · exact hother.tags
        · exact ⟨_, rfl, fun tag htag => normalize?_of_mem_tagNames (TagSet.mem_ofList.mp htag)⟩
      · obtain rfl | ⟨v, hv⟩ := hcolor
        · exact hother.color
        · exact Color.isNormal_of_ofJson hv
  | none =>
      obtain ⟨locator, title, notes, set, color, v, w, hset, hcolor, rfl⟩ := bookmarkFor_none hb
      exact ⟨⟨set, rfl, hasNormalTags_of_ofJson hset⟩, Color.isNormal_of_ofJson hcolor, .inl rfl⟩

/-- Requests write well-formed bookmarks. -/
theorem regime_isWellFormed : Regime HasNormalFields IsWellFormed now where
  completed := Store.isCompletable_of_hasNormalFields
  visited hb hvisited := Store.isStorable_of_hasNormalFields (hb.visited hvisited)
  added hexisting hb :=
    Store.isStorable_of_hasNormalFields (hasNormalFields_of_bookmarkFor hexisting hb)
  moved hb hmoved := by
    rw [checked_eq_ok hmoved]
    exact Store.isStorable_of_hasNormalFields ⟨hb.tags, hb.color, hb.visitCount⟩

end Command

/-! ## Runs -/

open RecordDirectory

/-- Whether bytes are those of the record of a well-formed bookmark. -/
def IsWellFormedRecord (content : ByteArray) : Prop :=
  ∃ b text, Bookmark.IsWellFormed b ∧ recordText b = .ok text ∧ content = text.toUTF8

variable {d : Disk} {l : Location}

/-- Whether a record file has what it had on a disk, or the record of a well-formed bookmark. -/
def IsKeptOrWellFormed (d : Disk) (l : Location) (name : String) (content : ByteArray) : Prop :=
  d.files.file? (l ++ [name]) = some content ∨ IsWellFormedRecord content

theorem discipline_isWellFormed :
    Discipline (IsKeptOrWellFormed d l) Bookmark.HasNormalFields Bookmark.IsWellFormed where
  read _ hb := by
    obtain ⟨record, hrecord⟩ := exists_record_of_valueOfBytes hb
    exact Bookmark.hasNormalFields_of_ofRecord hrecord
  written hb htext := .inr ⟨_, _, hb, htext, rfl⟩
  kept hb := hb.toHasNormalFields

/-- Every run writes well-formed bookmarks only. -/
theorem holdsOnly_foldl_after (runs : List Run) {found : Disk}
    (h : HoldsOnly (IsKeptOrWellFormed d l) l found) :
    HoldsOnly (IsKeptOrWellFormed d l) l (runs.foldl (fun d run => run.after d) found) := by
  induction runs generalizing found with
  | nil => exact h
  | cons run rest ih =>
      refine ih (Run.after_holdsOnly discipline_isWellFormed Command.regime_isWellFormed h ?_)
      intro _ _ _ record b hb
      exact Store.isStorable_of_hasNormalFields (Bookmark.hasNormalFields_of_ofRecord hb)

/-- Whatever lies on a disk, and whatever runs are made on it, with failures or without, each record
file in the end is one that was there or that of a well-formed bookmark. The fields of a store that
is opened then are in normal form, and its bookmarks are well-formed unless it is reported that some
could not be written; nothing of that kind is reported where nothing is in the way of records. -/
theorem runs_keep_form (d : Disk) (runs : List Run) :
    let last := runs.foldl (fun d run => run.after d) d
    (∀ l name content, isRecordName name = true → last.files.file? (l ++ [name]) = some content →
      d.files.file? (l ++ [name]) = some content ∨ IsWellFormedRecord content) ∧
    ∀ found : Disk, found.files = last.files → ∀ clock p r after,
      (Store.load clock p).execute found = (.ok r, after) →
      (∀ b ∈ Store.all r, b.HasNormalFields) ∧
        (IsUntroubled after.events → ∀ b ∈ Store.all r, b.IsWellFormed) ∧
        ∀ l, IsFree p l found → IsUntroubled after.events := by
  intro last
  constructor
  · intro l name content hname hfile
    have hstart : HoldsOnly (IsKeptOrWellFormed d l) l d := fun _ _ _ => .inl
    exact holdsOnly_foldl_after runs hstart name content hname hfile
  · intro found _ clock p r after hopened
    have hfilled : Store.IsFilled Bookmark.HasNormalFields Bookmark.IsWellFormed clock :=
      Store.isFilled_of_hasNormalFields
    have hresult : ((Store.load clock p).execute found).1 = .ok r := by rw [hopened]
    have hreported : ((Store.load clock p).execute found).2.events = after.events := by rw [hopened]
    rw [← hreported]
    refine ⟨?_, ?_, ?_⟩
    · exact Store.load_reads hfilled Bookmark.hasNormalFields_of_ofRecord hresult
    · exact (Store.load_fills hfilled Bookmark.hasNormalFields_of_ofRecord).execute r hresult
    · exact fun l hfree => (Store.load_of_isFree hfree).execute

/-! A shelf has a record with tags in one text, a color in capitals and a count that is none. -/

open Store

def oldShelf : Disk :=
  shelf [("46ebe0b0bd343dd876bdbfd1e7f326b4f01bdb31.json",
    "\x7b\"url\": \"a.org\", \"tags\": \"Lean,FP\", \"color\": \"FF00AA\", \"visitCount\": true, " ++
      "\"created\": \"2020-01-01\", \"modified\": \"2020-01-01\"\x7d")]

def removingRun : Run := sharedRun "/ann" noon ["rm", "b.org"]

/-- Whether a directory of one bookmark was opened, and no error was reported. -/
def isOneQuietly : Except Failure (RecordDirectory Bookmark Locator) × Reported Disk → Bool
  | (.ok r, after) => r.entries.length == 1 && after.events.all fun e => decide (e.level ≠ .error)
  | _ => false

theorem runs_keep_form_oldShelf :
    ∃ r after, (load (fun _ => midnight) (.ofParts ["shelf"])).execute
      (removingRun.after oldShelf) = (.ok r, after) ∧ r.entries.length = 1 ∧
        ∀ b ∈ all r, b.IsWellFormed := by
  have hrun : isOneQuietly ((load (fun _ => midnight) (.ofParts ["shelf"])).execute
      (removingRun.after oldShelf)) = true := by
    decide +kernel
  rcases hopening : (load (fun _ => midnight) (.ofParts ["shelf"])).execute
    (removingRun.after oldShelf) with ⟨result, after⟩
  rw [hopening] at hrun
  cases result with
  | error fault => cases hrun
  | ok r =>
      obtain ⟨hone, hsilent⟩ := Bool.and_eq_true_iff.mp hrun
      have hlast : [removingRun].foldl (fun d run => run.after d) oldShelf =
          removingRun.after oldShelf := by
        rw [List.foldl_cons, List.foldl_nil]
      obtain ⟨-, hopened⟩ := runs_keep_form oldShelf [removingRun]
      rw [hlast] at hopened
      refine ⟨r, after, rfl, beq_iff_eq.mp hone, ?_⟩
      exact (hopened _ rfl _ _ _ _ hopening).2.1 fun e he =>
        of_decide_eq_true (List.all_eq_true.mp hsilent e he)

end LinkShelf
