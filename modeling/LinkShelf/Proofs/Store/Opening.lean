import LinkShelf.Proofs.Bookmark.Clash
import LinkShelf.Proofs.Storage.Contents
import LinkShelf.Store

/-!
Opening a directory of bookmarks. Main statement: it is opened exactly if no record file holds a
record that clashes; its bookmarks are then those of the files that hold one, the last file counting
for a locator, and no file is touched (`load_ok_iff`).
-/

namespace LinkShelf

open RecordDirectory

namespace Bookmark

/-- Whether bytes are those of a record that clashes. -/
def ClashesIn (content : ByteArray) : Prop :=
  ∃ s record, Text.decodeLines content = .ok s ∧ Json.read s = .ok record ∧ Clashes record

theorem stops_valueOfBytes_iff {content : ByteArray} :
    Stops (valueOfBytes content : Except Failure Bookmark) ↔ ClashesIn content := by
  rw [valueOfBytes, ClashesIn]
  cases htext : Text.decodeLines content with
  | error fault => simp [Failure.isUnreadableRecord, Failure.isBadValue]
  | ok s =>
      simp only [valueOfText, Except.ok.injEq, exists_and_left, exists_eq_left']
      cases Json.read s with
      | error fault => simp [Failure.isUnreadableRecord, Failure.isBadValue]
      | ok record =>
          simp only [Except.ok.injEq, exists_eq_left']
          exact stops_ofRecord_iff

end Bookmark

namespace Store

variable {d : Disk} {p : Path} {l : Location}

theorem isHandled_iff {name : String} {content : ByteArray}
    (hread : d.read (p.child name) = .ok content) :
    IsHandled Bookmark d p name ↔ ¬ Bookmark.ClashesIn content := by
  rw [← Bookmark.stops_valueOfBytes_iff, IsHandled, readRecord, hread]
  constructor
  · rintro hhandled ⟨fault, hfault, hkind⟩
    rw [hhandled fault hfault] at hkind
    cases hkind
  · intro hstops fault hfault
    by_contra hkind
    exact hstops ⟨fault, hfault, by simpa using hkind⟩

/-- A directory of files is opened exactly if none of its record files holds a record that clashes.
Its bookmarks are then those of its files, the last one with a locator counting, and in any case the
disk is as it was. -/
theorem load_ok_iff (hlocated : d.locate p = .ok l) (hdirectory : d.files.isDirectory l = true)
    (hfiles : ∀ name ∈ recordNames d p, ∃ content, d.read (p.child name) = .ok content)
    (keyName : String) :
    let opening := (RecordDirectory.load p keyName :
      Operation Disk (RecordDirectory Bookmark Locator)).execute d
    ((∃ r, opening.1 = .ok r) ↔ ∀ name ∈ recordNames d p, ∀ content,
        d.read (p.child name) = .ok content → ¬ Bookmark.ClashesIn content) ∧
      (∀ r, opening.1 = .ok r → (Entries.keys r.entries).Nodup ∧
        ∀ key, r.entries.value? key = lastHeld? (records Bookmark d p) key) ∧
      opening.2.state = d := by
  intro opening
  have hclash : (∀ name ∈ recordNames d p, IsHandled Bookmark d p name) ↔
      ∀ name ∈ recordNames d p, ∀ content, d.read (p.child name) = .ok content →
        ¬ Bookmark.ClashesIn content := by
    constructor
    · intro hhandled name hname content hread
      exact (isHandled_iff hread).mp (hhandled name hname)
    · intro hclear name hname
      obtain ⟨content, hread⟩ := hfiles name hname
      exact (isHandled_iff hread).mpr (hclear name hname content hread)
  obtain ⟨hafter, hends⟩ := (load_ends (V := Bookmark) ⟨hlocated, hdirectory⟩ keyName).execute
  rw [← hclash]
  rcases hends with ⟨entries, hopened, hhandled, hdistinct, hvalues⟩ |
    ⟨name, hname, hstop, fault, hfault, -⟩
  · refine ⟨iff_of_true ⟨_, hopened⟩ hhandled, ?_, hafter⟩
    intro r hr
    obtain rfl := Except.ok.inj (hopened.symm.trans hr)
    exact ⟨hdistinct, hvalues⟩
  · refine ⟨iff_of_false ?_ fun hhandled => hstop (hhandled name hname), ?_, hafter⟩
    · rintro ⟨r, hr⟩
      cases hfault.symm.trans hr
    · intro r hr
      cases hfault.symm.trans hr

def shelf (files : List (String × String)) : Disk where
  files := ⟨(["shelf"], .directory) :: files.map fun f => (["shelf", f.1], .file f.2.toUTF8)⟩
  workingDirectory := []
  refusal? := fun _ => none

def mixedShelf : Disk :=
  shelf [("c.json", "\x7b\"url\": \"a.org\", \"title\": \"later\"\x7d"), ("b.json", "\x7bno"),
    (".tmp-0.json", "[]"), ("a.json", "\x7b\"url\": \"http://a.org/\", \"title\": \"earlier\"\x7d")]

/-- A file that is no record is passed over, and the later of two records of one page counts. -/
theorem mixedShelf_opens :
    ∃ r, ((RecordDirectory.load (.ofParts ["shelf"]) "url" :
        Operation Disk (RecordDirectory Bookmark Locator)).execute mixedShelf).1 = .ok r ∧
      (r.entries.value? ⟨"http://a.org/"⟩).map (·.title.shown) = some "later".toList := by
  have hnames : recordNames mixedShelf (.ofParts ["shelf"]) = ["a.json", "b.json", "c.json"] :=
    recordNames_eq (by decide) (by decide)
  have hfiles : ∀ name ∈ recordNames mixedShelf (.ofParts ["shelf"]), ∃ content,
      mixedShelf.read ((Path.ofParts ["shelf"]).child name) = .ok content := by
    rw [hnames]
    simp only [List.forall_mem_cons]
    exact ⟨⟨_, rfl⟩, ⟨_, rfl⟩, ⟨_, rfl⟩, nofun⟩
  have hopening := load_ok_iff (d := mixedShelf) (p := .ofParts ["shelf"]) (l := ["shelf"])
    rfl rfl hfiles "url"
  have hclear : ∀ name ∈ recordNames mixedShelf (.ofParts ["shelf"]), ∀ content,
      mixedShelf.read ((Path.ofParts ["shelf"]).child name) = .ok content →
        ¬ Bookmark.ClashesIn content := by
    rw [hnames]
    simp only [List.forall_mem_cons]
    refine ⟨?_, ?_, ?_, nofun⟩
    all_goals
      intro content hread
      obtain rfl := Except.ok.inj hread
      rw [← Bookmark.stops_valueOfBytes_iff]
      decide +kernel
  obtain ⟨r, hr⟩ := hopening.1.mpr hclear
  refine ⟨r, hr, ?_⟩
  rw [(hopening.2.1 r hr).2, records, hnames]
  decide +kernel

def listShelf : Disk := shelf [("a.json", "[]")]

/-- A file that holds a list keeps the directory from being opened. -/
theorem listShelf_not_opened :
    listShelf.read (.ofParts ["shelf", "a.json"]) = .ok "[]".toUTF8 ∧
      ((RecordDirectory.load (.ofParts ["shelf"]) "url" :
        Operation Disk (RecordDirectory Bookmark Locator)).execute listShelf).1.map (fun _ => ()) =
          .error .noSuchOperation := by
  decide +kernel

end Store

end LinkShelf
