import LinkShelf.Proofs.Storage.Mirror

/-!
Directories in which nothing is in the way of records. Main statements: as long as the device
refuses nothing, every record can be stored and every file discarded (`store_eq_ok`,
`discard_eq_ok`), and a file that the device refuses to make or to remove leaves the disk as it was
(`store_eq_error`, `discard_eq_error`).
-/

namespace LinkShelf

namespace Path

theorem intercalate_concat (separator name : String) {parts : List String} (hparts : parts ≠ []) :
    String.intercalate separator (parts ++ [name]) =
      String.intercalate separator parts ++ separator ++ name := by
  induction parts with
  | nil => exact absurd rfl hparts
  | cons first rest ih =>
      cases rest with
      | nil => simp
      | cons second rest =>
          simp only [List.cons_append, String.intercalate_cons_cons] at ih ⊢
          rw [ih nofun]
          simp [String.append_assoc]

/-- The text of a path in a directory is that of the directory with the name after it. -/
theorem exists_text_child (p : Path) (name : String) :
    ∃ front, (p.child name).text = front ++ name ∧
      front.utf8ByteSize ≤ p.text.utf8ByteSize + 1 ∧
      ∀ c ∈ front.toList, c ∈ p.text.toList ∨ c = '/' := by
  obtain ⟨start, parts⟩ := p
  by_cases hparts : parts = []
  · subst hparts
    refine ⟨start.text, by simp [child, text], ?_, ?_⟩
    all_goals cases start <;> simp [text, Start.text]
  · refine ⟨(⟨start, parts⟩ : Path).text ++ "/", ?_, ?_, ?_⟩
    · simp [child, text, hparts, intercalate_concat, String.append_assoc]
    · rw [String.utf8ByteSize_append]
      exact Nat.le_refl _
    · simp

theorem end_not_mem_child {p : Path} {name : String} (hp : '\x00' ∉ p.text.toList)
    (hname : '\x00' ∉ name.toList) : '\x00' ∉ (p.child name).text.toList := by
  obtain ⟨front, htext, -, hfront⟩ := p.exists_text_child name
  rw [htext, String.toList_append, List.mem_append]
  rintro (hmem | hmem)
  · obtain hmem | hslash := hfront _ hmem
    · exact hp hmem
    · revert hslash
      decide
  · exact hname hmem

end Path

namespace Disk

variable {d : Disk} {p : Path} {l : Location} {name : String}

/-- A short name in a directory leads to its place in the directory. -/
theorem locate_child_eq_ok (hp : d.locate p = .ok l) (hdirectory : d.files.isDirectory l = true)
    (hup : name ≠ "..") (hend : '\x00' ∉ name.toList)
    (hname : name.utf8ByteSize ≤ FileSystem.maxNameBytes)
    (hroom : p.text.utf8ByteSize + 1 + name.utf8ByteSize ≤ maxPathBytes) :
    d.locate (p.child name) = .ok (l ++ [name]) := by
  obtain ⟨hpend, -, hwalk⟩ := locate_eq_ok.mp hp
  obtain ⟨front, htext, hsize, -⟩ := p.exists_text_child name
  apply locate_eq_ok.mpr
  refine ⟨Path.end_not_mem_child hpend hend, ?_, ?_⟩
  · rw [htext, String.utf8ByteSize_append]
    omega
  · have hway : d.files.walk (p.child name).text
        (if p.start = .here then d.workingDirectory else []) p.parts = .ok l :=
      FileSystem.walk_of_sameDirectories FileSystem.sameDirectories_refl hwalk
    change d.files.walk _ (if p.start = .here then d.workingDirectory else [])
      (p.parts ++ [name]) = _
    rw [FileSystem.walk_append, hway]
    apply FileSystem.walk_cons_eq_ok.mpr
    exact ⟨hdirectory, .inr ⟨hup, hname, rfl⟩⟩

theorem take_eq_ok {s : FileStep} {files : FileSystem} (hrefusal : d.refusal? s = none)
    (hfiles : d.filesAfter s = .ok files) : d.take s = (.ok (), { d with files }) := by
  rw [take, hrefusal, hfiles]
  rfl

theorem take_eq_error {s : FileStep} {reason : String} (hrefusal : d.refusal? s = some reason) :
    d.take s = (.error (.device reason), d) := by
  rw [take, hrefusal]

end Disk

namespace RecordDirectory

variable {d : Disk} {p : Path} {l : Location}

/-- Whether files can be made in a directory: there is room for the names of record files in a path,
and no directory has the name of a file. -/
structure IsRoomy (p : Path) (l : Location) (d : Disk) : Prop where
  located : d.locate p = .ok l
  directory : d.files.isDirectory l = true
  room : p.text.utf8ByteSize + 46 ≤ Disk.maxPathBytes
  files : ∀ name, d.files.isDirectory (l ++ [name]) = false

namespace IsRoomy

variable (h : IsRoomy p l d)

include h

theorem of_sameDirectories {files : FileSystem}
    (hsame : FileSystem.SameDirectories d.files files) : IsRoomy p l { d with files } where
  located := Disk.locate_of_sameDirectories hsame rfl h.located
  directory := (hsame l).trans h.directory
  room := h.room
  files name := (hsame _).trans (h.files name)

theorem put (name : String) (content : ByteArray) :
    IsRoomy p l { d with files := d.files.put (l ++ [name]) (.file content) } :=
  h.of_sameDirectories (FileSystem.sameDirectories_put_file (h.files name))

theorem drop (name : String) :
    IsRoomy p l { d with files := d.files.drop (l ++ [name]) } :=
  h.of_sameDirectories (FileSystem.sameDirectories_drop (h.files name))

theorem locate_fileName (keyText : String) :
    d.locate (p.child (fileName keyText)) = .ok (l ++ [fileName keyText]) := by
  have hroom := h.room
  have hsize := utf8ByteSize_fileName keyText
  apply Disk.locate_child_eq_ok h.located h.directory (fileName_ne_up keyText)
    (end_not_mem_fileName keyText)
  · rw [hsize]
    decide
  · omega

theorem locate_temporaryName :
    d.locate (p.child (temporaryName 0)) = .ok (l ++ [temporaryName 0]) := by
  have hroom := h.room
  have hsize : (temporaryName 0).utf8ByteSize = 11 := rfl
  apply Disk.locate_child_eq_ok h.located h.directory (temporaryName_ne_up 0) (by decide)
  · rw [hsize]
    decide
  · omega

theorem filesAfter_create : d.filesAfter (.create (p.child (temporaryName 0))) =
    .ok (d.files.put (l ++ [temporaryName 0]) (.file .empty)) := by
  simp only [Disk.filesAfter, h.locate_temporaryName, ok_bind, FileSystem.write, h.files]
  rfl

theorem filesAfter_extend {held : ByteArray} (content : ByteArray)
    (hheld : d.files.file? (l ++ [temporaryName 0]) = some held) :
    d.filesAfter (.extend (p.child (temporaryName 0)) content) =
      .ok (d.files.put (l ++ [temporaryName 0]) (.file (held ++ content))) := by
  simp only [Disk.filesAfter, h.locate_temporaryName, ok_bind, FileSystem.append,
    FileSystem.write, h.files, hheld]
  rfl

theorem filesAfter_move {held : ByteArray} (keyText : String)
    (hheld : d.files.file? (l ++ [temporaryName 0]) = some held) :
    d.filesAfter (.move (p.child (temporaryName 0)) (p.child (fileName keyText))) =
      .ok ((d.files.drop (l ++ [temporaryName 0])).put (l ++ [fileName keyText]) (.file held)) := by
  simp only [Disk.filesAfter, h.locate_temporaryName, h.locate_fileName, ok_bind,
    FileSystem.move, h.files, hheld]
  rfl

end IsRoomy

/-- Whether records can be stored in a directory: there is room for them, and the first temporary
name is free. -/
structure IsUnobstructed (p : Path) (l : Location) (d : Disk) : Prop extends IsRoomy p l d where
  free : temporaryName 0 ∉ d.files.names l

/-- Whether nothing is in the way of records in a directory, and the device refuses nothing. -/
structure IsFree (p : Path) (l : Location) (d : Disk) : Prop extends IsUnobstructed p l d where
  allowed : ∀ step, d.refusal? step = none

theorem file?_put (fs : FileSystem) (name : String) (content : ByteArray) :
    (fs.put (l ++ [name]) (.file content)).file? (l ++ [name]) = some content := by
  simp [FileSystem.file?, FileSystem.node?_put]

namespace IsUnobstructed

variable (h : IsUnobstructed p l d)

include h

theorem freeName_eq : Disk.freeName (d.names p) temporaryName (d.names p).length 0 =
    temporaryName 0 := by
  have hfree : (d.names p).contains (temporaryName 0) = false := by
    simpa [Disk.names, h.located] using h.free
  cases (d.names p).length with
  | zero => rfl
  | succ n => rw [Disk.freeName, hfree]; rfl

theorem store_eq_error {reason : String} (hcreate : ∀ q, d.refusal? (.create q) = some reason)
    (keyText : String) (content : ByteArray) :
    d.store p (fileName keyText) temporaryName content = (.error (.device reason), d) := by
  have htaken : d.takeAll (Disk.replacing (p.child (temporaryName 0)) (p.child (fileName keyText))
      content) = (.error (.device reason), d) := by
    rw [Disk.replacing, Disk.takeAll, Disk.take_eq_error (hcreate _)]
  have hunlinked : (d.take (.unlink (p.child (temporaryName 0)))).2 = d := by
    rcases Disk.take_cases (.unlink (p.child (temporaryName 0))) d with
      ⟨fault, htake⟩ | ⟨files, hfiles, -⟩
    · rw [htake]
    · obtain ⟨m, removed, hm, hnode, -⟩ := Disk.filesAfter_unlink hfiles
      cases h.locate_temporaryName.symm.trans hm
      have hmem := FileSystem.mem_names_iff_node?.mpr (hnode ▸ Option.some_ne_none _)
      exact absurd hmem h.free
  simp only [Disk.store, h.freeName_eq, htaken, hunlinked]

/-- The file of a record is stored, and the temporary one is gone. -/
theorem store_eq_ok (hcreate : ∀ q, d.refusal? (.create q) = none)
    (hextend : ∀ q bytes, d.refusal? (.extend q bytes) = none)
    (hmove : ∀ source target, d.refusal? (.move source target) = none)
    (keyText : String) (content : ByteArray) :
    ∃ files, d.store p (fileName keyText) temporaryName content = (.ok (), { d with files }) ∧
      IsUnobstructed p l { d with files } := by
  have hcreated := h.put (temporaryName 0) .empty
  have hempty := file?_put (l := l) d.files (temporaryName 0) .empty
  have hextended := hcreated.put (temporaryName 0) (.empty ++ content)
  have hfilled := file?_put (l := l) (d.files.put (l ++ [temporaryName 0]) (.file .empty))
    (temporaryName 0) (.empty ++ content)
  have hmoved := (hextended.drop (temporaryName 0)).put (fileName keyText) (.empty ++ content)
  have hfirst := Disk.take_eq_ok (hcreate _) h.filesAfter_create
  have hsecond := Disk.take_eq_ok (by exact hextend _ _)
    (hcreated.filesAfter_extend content hempty)
  have hthird := Disk.take_eq_ok (by exact hmove _ _) (hextended.filesAfter_move keyText hfilled)
  refine ⟨_, ?_, hmoved, ?_⟩
  · simp only [Disk.store, h.freeName_eq, Disk.replacing, Disk.takeAll, hfirst, hsecond, hthird]
  · have hname : temporaryName 0 ≠ fileName keyText := by
      intro heq
      have hrecord := isRecordName_temporaryName 0
      rw [heq, isRecordName_fileName] at hrecord
      cases hrecord
    rw [FileSystem.mem_names_iff_node?, FileSystem.node?_put (by simp),
      if_neg (by simpa using hname), FileSystem.node?_drop (by simp), if_pos rfl]
    exact fun hne => hne rfl

omit h in
theorem discard_eq_error {reason : String} (hunlink : ∀ q, d.refusal? (.unlink q) = some reason)
    (keyText : String) :
    d.discard (p.child (fileName keyText)) = (.error (.device reason), d) := by
  rw [Disk.discard, Disk.take_eq_error (hunlink _)]

theorem discard_eq_ok (hunlink : ∀ q, d.refusal? (.unlink q) = none) (keyText : String) :
    ∃ files, d.discard (p.child (fileName keyText)) = (.ok (), { d with files }) ∧
      IsUnobstructed p l { d with files } := by
  have hafter : d.filesAfter (.unlink (p.child (fileName keyText))) =
      d.files.remove (l ++ [fileName keyText]) (p.child (fileName keyText)).text := by
    simp only [Disk.filesAfter, h.locate_fileName, ok_bind]
  have hfile := h.files (fileName keyText)
  cases hnode : d.files.node? (l ++ [fileName keyText]) with
  | none =>
      refine ⟨d.files, ?_, h⟩
      simp only [Disk.discard, Disk.take, hunlink, hafter, FileSystem.remove, hnode, Disk.settle]
  | some node =>
      cases node with
      | directory => simp [FileSystem.isDirectory, hnode] at hfile
      | file removed =>
          refine ⟨d.files.drop (l ++ [fileName keyText]), ?_, h.drop (fileName keyText), ?_⟩
          · simp only [Disk.discard, Disk.take, hunlink, hafter, FileSystem.remove, hnode,
              Disk.settle]
          · rw [FileSystem.names_drop, List.mem_filter]
            exact fun hmem => h.free hmem.1

end IsUnobstructed

/-- Nothing is in the way where no name is that of a directory or the first temporary one. -/
theorem isUnobstructed_of_names (hlocated : d.locate p = .ok l)
    (hdirectory : d.files.isDirectory l = true)
    (hnames : ∀ name ∈ d.files.names l,
      name ≠ temporaryName 0 ∧ d.files.isDirectory (l ++ [name]) = false)
    (hroom : p.text.utf8ByteSize + 46 ≤ Disk.maxPathBytes) : IsUnobstructed p l d := by
  refine ⟨⟨hlocated, hdirectory, hroom, ?_⟩, fun hmem => (hnames _ hmem).1 rfl⟩
  intro name
  by_cases hname : name ∈ d.files.names l
  · exact (hnames name hname).2
  · rw [FileSystem.mem_names_iff_node?, ne_eq, not_not] at hname
    rw [FileSystem.isDirectory, hname]
    rfl

theorem isUnobstructed_of_empty (hlocated : d.locate p = .ok l)
    (hdirectory : d.files.isDirectory l = true) (hempty : d.files.names l = [])
    (hroom : p.text.utf8ByteSize + 46 ≤ Disk.maxPathBytes) : IsUnobstructed p l d :=
  isUnobstructed_of_names hlocated hdirectory (by simp [hempty]) hroom

end RecordDirectory

end LinkShelf
