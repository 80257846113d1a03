import LinkShelf.Proofs.Storage.Edits
import LinkShelf.Proofs.Store.Opening

/-!
Opening a directory again after edits. Main statement: a key has the value that was in memory
exactly if no other file counts for it, which may be where files do not have the names of their own
keys (`value?_reopened_iff`).
-/

namespace LinkShelf.RecordDirectory

variable {V K : Type} [Record V K] [DecidableEq K]

/-- After edits that succeeded, opening the directory again gives a key what is in memory exactly if
that survives the files that were there. -/
theorem value?_reopened_iff {d : Disk} {p : Path} {keyName : String} {r : RecordDirectory V K}
    {edits : List (Edit V K)} {after : Reported (RecordDirectory V K)}
    (hload : ((load p keyName).execute d).1 = .ok r)
    (hrun : (performAll edits).execute r = (.ok (), after))
    (hlossless : ∀ v, .add v ∈ edits → Lossless v)
    (hapart : ∀ k ∈ editedKeys r.entries edits, ∀ m ∈ editedKeys r.entries edits,
      nameOf V k = nameOf V m → k = m) :
    ∃ fresh : RecordDirectory V K, ((load p keyName).execute after.state.disk).1 = .ok fresh ∧
      ∀ key, fresh.entries.value? key = after.state.entries.value? key ↔
        Survives (records V r.disk p) (editedKeys r.entries edits)
          (after.state.entries.value? key) key := by
  obtain ⟨rfl, l, hopened⟩ := isOpened_of_load hload
  have hends := (performAll_ends hopened.follows hopened.lies hlossless hapart).execute
  rw [hrun] at hends
  obtain ⟨hpath, hlies, hfollows⟩ := hends rfl
  have hhandled := hfollows.handled
  have hsurvives := hfollows.lastHeld?_eq_iff (inOrder_records _ _)
  dsimp only at hpath hlies hhandled hsurvives
  rw [hpath] at hlies hhandled hsurvives
  obtain ⟨fresh, hfresh, hvalues⟩ := exists_load_eq_ok hlies hhandled keyName
  refine ⟨fresh, hfresh, ?_⟩
  intro key
  rw [hvalues key]
  exact hsurvives key

open Store (shelf)

def sampleRecord : String := "\x7b\"url\": \"http://a.org/\", \"title\": \"a\"\x7d"

def namedShelf : Disk := shelf [("46ebe0b0bd343dd876bdbfd1e7f326b4f01bdb31.json", sampleRecord)]

def removal : List (Edit Bookmark Locator) := [.remove ⟨"http://a.org/"⟩]

/-- What a page is in memory after its removal, and when the directory is opened again. -/
def afterRemoval (d : Disk) : Option (Option Bookmark × Option Bookmark) := do
  let p := Path.ofParts ["shelf"]
  let opened : RecordDirectory Bookmark Locator ← ((load p "url").execute d).1.toOption
  let after := (performAll removal).execute opened
  let _ ← after.1.toOption
  let fresh : RecordDirectory Bookmark Locator ←
    ((load p "url").execute after.2.state.disk).1.toOption
  return (after.2.state.entries.value? ⟨"http://a.org/"⟩, fresh.entries.value? ⟨"http://a.org/"⟩)

theorem exists_of_afterRemoval {d : Disk} {memory reopened : Option Bookmark}
    (h : afterRemoval d = some (memory, reopened)) :
    ∃ (opened : RecordDirectory Bookmark Locator) (after : Reported _)
      (fresh : RecordDirectory Bookmark Locator),
      ((load (.ofParts ["shelf"]) "url").execute d).1 = .ok opened ∧
      (performAll removal).execute opened = (.ok (), after) ∧
      ((load (.ofParts ["shelf"]) "url").execute after.state.disk).1 = .ok fresh ∧
      after.state.entries.value? ⟨"http://a.org/"⟩ = memory ∧
      fresh.entries.value? ⟨"http://a.org/"⟩ = reopened := by
  simp only [afterRemoval, Option.bind_eq_bind, Option.bind_eq_some_iff, toOption_eq_some,
    Option.pure_def, Option.some.injEq, Prod.mk.injEq] at h
  obtain ⟨opened, hopened, u, hrun, fresh, hfresh, hmemory, hreopened⟩ := h
  exact ⟨opened, _, fresh, hopened, Prod.ext hrun rfl, hfresh, hmemory, hreopened⟩

theorem files_of_namedShelf {opened : RecordDirectory Bookmark Locator}
    (hopened : ((load (.ofParts ["shelf"]) "url").execute namedShelf).1 = .ok opened) :
    ∀ f ∈ records Bookmark opened.disk opened.path,
      f.1 = nameOf Bookmark (Keyed.key f.2) ∧ Keyed.key f.2 = ⟨"http://a.org/"⟩ := by
  have hlies : LiesAt namedShelf (.ofParts ["shelf"]) ["shelf"] := by
    constructor <;> rfl
  rcases (load_ends (V := Bookmark) hlies "url").execute.outcome with
    ⟨entries, hok, -⟩ | ⟨name, -, -, fault, hfault, -⟩
  · cases hok.symm.trans hopened
    dsimp only
    decide +kernel
  · cases hfault.symm.trans hopened

/-- A page is gone for good where its file has the name of its locator. -/
theorem namedShelf_keeps_removal :
    ∃ (opened : RecordDirectory Bookmark Locator) (after : Reported _)
      (fresh : RecordDirectory Bookmark Locator),
      ((load (.ofParts ["shelf"]) "url").execute namedShelf).1 = .ok opened ∧
      (performAll removal).execute opened = (.ok (), after) ∧
      ((load (.ofParts ["shelf"]) "url").execute after.state.disk).1 = .ok fresh ∧
      after.state.entries.value? ⟨"http://a.org/"⟩ = none ∧
      fresh.entries.value? ⟨"http://a.org/"⟩ = after.state.entries.value? ⟨"http://a.org/"⟩ := by
  have hrun : (afterRemoval namedShelf).map (fun x => x.1.isSome) = some false := by decide +kernel
  obtain ⟨⟨memory, reopened⟩, hafter, hgone⟩ := Option.map_eq_some_iff.mp hrun
  obtain ⟨opened, after, -, hopened, hperformed, -, rfl, -⟩ := exists_of_afterRemoval hafter
  have hfiles := files_of_namedShelf hopened
  rw [(isOpened_of_load hopened).1] at hfiles
  have hedited : ∀ key ∈ editedKeys opened.entries removal, key = ⟨"http://a.org/"⟩ := by
    intro key hkey
    simp only [removal, editedKeys, Edit.keys, List.append_nil] at hkey
    split at hkey
    · simpa using hkey
    · cases hkey
  obtain ⟨fresh, hfresh, hvalues⟩ := value?_reopened_iff hopened hperformed
    (by simp [removal]) fun k hk m hm _ => (hedited k hk).trans (hedited m hm).symm
  refine ⟨opened, after, fresh, hopened, hperformed, hfresh, by simpa using hgone, ?_⟩
  apply (hvalues _).mpr
  exact survives_of_named (fun f hf => (hfiles f hf).1)
    (fun k hk f hf _ => (hedited k hk).trans (hfiles f hf).2.symm) _

def strayShelf : Disk := shelf [("a.json", sampleRecord)]

theorem strayShelf_loses_removal :
    ∃ (opened : RecordDirectory Bookmark Locator) (after : Reported _)
      (fresh : RecordDirectory Bookmark Locator),
      ((load (.ofParts ["shelf"]) "url").execute strayShelf).1 = .ok opened ∧
      (performAll removal).execute opened = (.ok (), after) ∧
      ((load (.ofParts ["shelf"]) "url").execute after.state.disk).1 = .ok fresh ∧
      after.state.entries.value? ⟨"http://a.org/"⟩ = none ∧
      (fresh.entries.value? ⟨"http://a.org/"⟩).isSome = true := by
  have hrun : (afterRemoval strayShelf).map (fun x => (x.1.isSome, x.2.isSome)) =
      some (false, true) := by
    decide +kernel
  obtain ⟨⟨memory, reopened⟩, hafter, hx⟩ := Option.map_eq_some_iff.mp hrun
  obtain ⟨opened, after, fresh, hopened, hperformed, hfresh, rfl, rfl⟩ :=
    exists_of_afterRemoval hafter
  refine ⟨opened, after, fresh, hopened, hperformed, hfresh, ?_⟩
  simpa using hx

end LinkShelf.RecordDirectory
