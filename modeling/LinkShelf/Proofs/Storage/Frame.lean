import LinkShelf.CrashLog
import LinkShelf.Proofs.Storage.Disk

/-!
What changes to a disk leave alone. Main statements: directories that are made and files that are
written under hidden names leave the shown files as they are, wherever those lie
(`spares_makeDirectories`, `spares_write`, `spares_append`); and what is stored in one directory
leaves everything else as it is (`inside_store`, `inside_discard`).
-/

namespace LinkShelf.Disk

open FileSystem (SameDirectories node?_put node?_drop walk_mono)

variable {d mid after : Disk} {p : Path} {l : Location} {name : String} {content : ByteArray}
  {shown : String → Bool}

/-! ## Shown files -/

/-- Whether a disk has all directories of another one, and the same files under the names that are
shown, and lies on the same device. -/
structure Spares (shown : String → Bool) (d after : Disk) : Prop where
  workingDirectory : after.workingDirectory = d.workingDirectory
  refusal : after.refusal? = d.refusal?
  directories : ∀ l, d.files.isDirectory l = true → after.files.isDirectory l = true
  files : ∀ l name, shown name = true →
    after.files.file? (l ++ [name]) = d.files.file? (l ++ [name])

theorem Spares.refl : Spares shown d d := ⟨rfl, rfl, fun _ => id, fun _ _ _ => rfl⟩

theorem Spares.trans (h : Spares shown d mid) (h' : Spares shown mid after) :
    Spares shown d after :=
  ⟨h'.workingDirectory.trans h.workingDirectory, h'.refusal.trans h.refusal,
    fun l hl => h'.directories l (h.directories l hl),
    fun l name hname => (h'.files l name hname).trans (h.files l name hname)⟩

theorem Spares.locate (h : Spares shown d after) (hp : d.locate p = .ok l) :
    after.locate p = .ok l := by
  rw [locate_eq_ok] at hp ⊢
  rw [h.workingDirectory]
  exact ⟨hp.1, hp.2.1, walk_mono h.directories hp.2.2⟩

/-- A directory takes the place of no file. -/
theorem spares_put_directory (hfree : d.files.node? l = none) :
    Spares shown d { d with files := d.files.put l .directory } := by
  have hroot : l ≠ [] := by
    rintro rfl
    simp [FileSystem.node?] at hfree
  refine ⟨rfl, rfl, ?_, ?_⟩
  · intro m hm
    simp only [FileSystem.isDirectory, node?_put hroot] at hm ⊢
    split
    · rfl
    · exact hm
  · intro m name _
    simp only [FileSystem.file?, node?_put hroot]
    by_cases hplace : m ++ [name] = l
    · rw [if_pos hplace, hplace, hfree]
    · rw [if_neg hplace]

theorem spares_put_file (hhidden : shown name = false)
    (hfile : d.files.isDirectory (l ++ [name]) = false) :
    Spares shown d { d with files := d.files.put (l ++ [name]) (.file content) } := by
  refine ⟨rfl, rfl, ?_, ?_⟩
  · intro m hm
    rw [FileSystem.sameDirectories_put_file hfile]
    exact hm
  · intro m other hother
    have hne : other ≠ name := by
      rintro rfl
      simp [hhidden] at hother
    simp only [FileSystem.file?, node?_put (List.concat_ne_nil name l)]
    rw [if_neg (by simp [hne])]

theorem spares_of_agree (h : ∀ l, Agree shown l d after) (hrefusal : after.refusal? = d.refusal?) :
    Spares shown d after := by
  refine ⟨(h []).workingDirectory, hrefusal, ?_, ?_⟩
  · intro l hl
    exact ((h l).files.directories l).trans hl
  · intro l name hname
    rw [FileSystem.file?, FileSystem.file?, (h l).files.nodes name hname]

/-- A file that is written under a hidden name is seen nowhere. -/
theorem agree_put_file (hhidden : shown name = false) {m : Location}
    (hfile : d.files.isDirectory (m ++ [name]) = false) :
    Agree shown l d { d with files := d.files.put (m ++ [name]) (.file content) } := by
  by_cases hml : m = l
  · subst hml
    exact ⟨rfl, .put_hidden hhidden hfile⟩
  · refine ⟨rfl, FileSystem.sameDirectories_put_file hfile, ?_, ?_⟩
    · simp only [FileSystem.names_put_elsewhere hml]
    · intro other _
      have hne : l ++ [other] ≠ m ++ [name] :=
        fun hsame => hml (List.append_inj_left' hsame rfl).symm
      rw [node?_put (List.concat_ne_nil name m), if_neg hne]

theorem exists_of_locate_child (hname : name ≠ "..") (hchild : d.locate (p.child name) = .ok l) :
    ∃ m, l = m ++ [name] := by
  have hwalk := (locate_eq_ok.mp hchild).2.2
  change d.files.walk _ _ (p.parts ++ [name]) = _ at hwalk
  rw [FileSystem.walk_append] at hwalk
  split at hwalk
  · next mid _ =>
      obtain ⟨-, ⟨hup, -⟩ | ⟨-, -, hrest⟩⟩ := FileSystem.walk_cons_eq_ok.mp hwalk
      · exact absurd hup hname
      · exact ⟨mid, by simpa [FileSystem.walk] using hrest.symm⟩
  · cases hwalk

theorem spares_makeDirectory (d : Disk) (p : Path) : Spares shown d (d.makeDirectory p).2 := by
  rw [makeDirectory]
  cases hfiles : (do d.files.makeDirectory (← d.locate p) p.text) with
  | ok files =>
      obtain ⟨l, -, hmake⟩ := bind_eq_ok.mp hfiles
      rw [FileSystem.makeDirectory] at hmake
      split at hmake
      · cases hmake
      · next hfree =>
          cases hmake
          exact spares_put_directory hfree
  | error fault =>
      simp only [settle]
      split
      · exact .refl
      · exact .refl
      · exact .refl

theorem spares_makeWay (p : Path) (n : Nat) (d : Disk) : Spares shown d (d.makeWay p n).2 := by
  induction n generalizing d with
  | zero => exact spares_makeDirectory d _
  | succ n ih =>
      have hfirst : Spares shown d (d.makeDirectory (p.upTo (n + 1))).2 :=
        spares_makeDirectory d _
      rw [makeWay]
      split
      · next mid hmade =>
          rw [hmade] at hfirst
          have hway := hfirst.trans (ih mid)
          split
          · next made hrest =>
              rw [hrest] at hway
              exact hway.trans (spares_makeDirectory made _)
          · exact hway
      · exact hfirst

theorem spares_makeDirectories (p : Path) (d : Disk) :
    Spares shown d (d.makeDirectories p).2 :=
  spares_makeWay p _ d

section

variable (hname : name ≠ "..") (hhidden : shown name = false)

include hname hhidden

theorem spares_write (p : Path) (content : ByteArray) (d : Disk) :
    Spares shown d (d.write (p.child name) content).2 := by
  rw [write]
  cases hfiles : (do d.files.write (← d.locate (p.child name)) content (p.child name).text) with
  | error fault => exact .refl
  | ok files =>
      obtain ⟨l, hchild, hwrite⟩ := bind_eq_ok.mp hfiles
      obtain ⟨hfile, rfl⟩ := write_eq_ok.mp hwrite
      obtain ⟨m, rfl⟩ := exists_of_locate_child hname hchild
      exact spares_put_file hhidden hfile

theorem spares_append (p : Path) (content : ByteArray) (d : Disk) :
    Spares shown d (d.append (p.child name) content).2 := by
  rw [append]
  cases hfiles : (do d.files.append (← d.locate (p.child name)) content (p.child name).text) with
  | error fault => exact .refl
  | ok files =>
      obtain ⟨l, hchild, happend⟩ := bind_eq_ok.mp hfiles
      obtain ⟨hfile, rfl⟩ := write_eq_ok.mp happend
      obtain ⟨m, rfl⟩ := exists_of_locate_child hname hchild
      exact spares_put_file hhidden hfile

end

/-! ## The device -/

theorem refusal_take (s : FileStep) (d : Disk) : (d.take s).2.refusal? = d.refusal? := by
  obtain ⟨fault, htake⟩ | ⟨files, -, htake⟩ := take_cases s d <;> rw [htake]

theorem refusal_takeAll (steps : List FileStep) (d : Disk) :
    (d.takeAll steps).2.refusal? = d.refusal? := by
  induction steps generalizing d with
  | nil => rfl
  | cons s rest ih =>
      have hfirst := refusal_take s d
      rw [takeAll]
      split
      · next mid htake =>
          rw [htake] at hfirst
          exact (ih mid).trans hfirst
      · next fault mid htake =>
          rw [htake] at hfirst
          exact hfirst

theorem refusal_store (p : Path) (name : String) (temporaryName : Nat → String)
    (content : ByteArray) (d : Disk) :
    (d.store p name temporaryName content).2.refusal? = d.refusal? := by
  simp only [store]
  generalize replacing _ (p.child name) content = steps
  have htaken := refusal_takeAll steps d
  split
  · next after hrun =>
      rw [hrun] at htaken
      exact htaken
  · next fault after hrun =>
      rw [hrun] at htaken
      exact (refusal_take _ after).trans htaken

/-! ## One directory -/

/-- Whether two disks differ at most in what lies in one directory, and not in directories. -/
structure Inside (l : Location) (d after : Disk) : Prop where
  workingDirectory : after.workingDirectory = d.workingDirectory
  directories : SameDirectories d.files after.files
  nodes : ∀ m, (∀ name, m ≠ l ++ [name]) → after.files.node? m = d.files.node? m

theorem Inside.refl : Inside l d d := ⟨rfl, FileSystem.sameDirectories_refl, fun _ _ => rfl⟩

theorem Inside.trans (h : Inside l d mid) (h' : Inside l mid after) : Inside l d after :=
  ⟨h'.workingDirectory.trans h.workingDirectory,
    fun m => (h'.directories m).trans (h.directories m),
    fun m hm => (h'.nodes m hm).trans (h.nodes m hm)⟩

theorem Inside.locate {m : Location} (h : Inside l d after) (hp : d.locate p = .ok m) :
    after.locate p = .ok m :=
  locate_of_sameDirectories h.directories h.workingDirectory hp

theorem inside_put (hfile : d.files.isDirectory (l ++ [name]) = false) :
    Inside l d { d with files := d.files.put (l ++ [name]) (.file content) } := by
  refine ⟨rfl, FileSystem.sameDirectories_put_file hfile, ?_⟩
  intro m hm
  rw [node?_put (List.concat_ne_nil name l), if_neg (hm name)]

theorem inside_drop (hfile : d.files.isDirectory (l ++ [name]) = false) :
    Inside l d { d with files := d.files.drop (l ++ [name]) } := by
  refine ⟨rfl, FileSystem.sameDirectories_drop hfile, ?_⟩
  intro m hm
  rw [node?_drop (List.concat_ne_nil name l), if_neg (hm name)]

def IsChild (p q : Path) : Prop := ∃ name, name ≠ ".." ∧ q = p.child name

/-- Whether all that a step changes lies in one directory. -/
def IsStepIn (p : Path) : FileStep → Prop
  | .create q => IsChild p q
  | .extend q _ => IsChild p q
  | .move source target => IsChild p source ∧ IsChild p target
  | .unlink q => IsChild p q

theorem IsChild.locate {q : Path} {m : Location} (hq : IsChild p q) (hp : d.locate p = .ok l)
    (hm : d.locate q = .ok m) : ∃ name, m = l ++ [name] := by
  obtain ⟨name, hname, rfl⟩ := hq
  exact ⟨name, (locate_child hname hp hm).1⟩

theorem inside_take {s : FileStep} (hp : d.locate p = .ok l) (hs : IsStepIn p s) :
    Inside l d (d.take s).2 := by
  obtain ⟨fault, htake⟩ | ⟨files, hfiles, htake⟩ := take_cases s d
  · rw [htake]
    exact .refl
  · rw [htake]
    cases s with
    | create q =>
        obtain ⟨m, hm, hfile, rfl⟩ := filesAfter_create hfiles
        obtain ⟨name, rfl⟩ := hs.locate hp hm
        exact inside_put hfile
    | extend q piece =>
        obtain ⟨m, hm, hfile, rfl⟩ := filesAfter_extend hfiles
        obtain ⟨name, rfl⟩ := hs.locate hp hm
        exact inside_put hfile
    | move source target =>
        obtain ⟨k, m, moved, hk, hm, hmoved, hfile, rfl⟩ := filesAfter_move hfiles
        obtain ⟨temporary, rfl⟩ := hs.1.locate hp hk
        obtain ⟨name, rfl⟩ := hs.2.locate hp hm
        have hsource : d.files.isDirectory (l ++ [temporary]) = false := by
          rw [FileSystem.file?] at hmoved
          split at hmoved
          · next held hnode => simp [FileSystem.isDirectory, hnode]
          · cases hmoved
        have hdropped : Inside l d { d with files := d.files.drop (l ++ [temporary]) } :=
          inside_drop hsource
        exact hdropped.trans (inside_put ((hdropped.directories _).trans hfile))
    | unlink q =>
        obtain ⟨m, removed, hm, hnode, rfl⟩ := filesAfter_unlink hfiles
        obtain ⟨name, rfl⟩ := hs.locate hp hm
        exact inside_drop (by simp [FileSystem.isDirectory, hnode])

theorem inside_takeAll {steps : List FileStep} (hp : d.locate p = .ok l)
    (hsteps : ∀ s ∈ steps, IsStepIn p s) : Inside l d (d.takeAll steps).2 := by
  induction steps generalizing d with
  | nil => exact .refl
  | cons s rest ih =>
      obtain ⟨hs, hrest⟩ := List.forall_mem_cons.mp hsteps
      have hfirst := inside_take hp hs
      rw [takeAll]
      split
      · next mid htake =>
          rw [htake] at hfirst
          exact hfirst.trans (ih (hfirst.locate hp) hrest)
      · next fault mid htake =>
          rw [htake] at hfirst
          exact hfirst

theorem inside_store (hp : d.locate p = .ok l) (hname : name ≠ "..") {temporaryName : Nat → String}
    (htemporary : ∀ n, temporaryName n ≠ "..") (content : ByteArray) :
    Inside l d (d.store p name temporaryName content).2 := by
  obtain ⟨n, hn⟩ := freeName_eq (d.names p) temporaryName (d.names p).length 0
  have hchild : IsChild p (p.child (temporaryName n)) := ⟨_, htemporary n, rfl⟩
  have hsteps : ∀ s ∈ replacing (p.child (temporaryName n)) (p.child name) content,
      IsStepIn p s := by
    rw [replacing]
    refine List.forall_mem_cons.mpr ⟨hchild, List.forall_mem_cons.mpr ⟨hchild, ?_⟩⟩
    exact List.forall_mem_singleton.mpr ⟨hchild, name, hname, rfl⟩
  have htaken := inside_takeAll hp hsteps
  simp only [store, hn]
  split
  · next after hrun =>
      rw [hrun] at htaken
      exact htaken
  · next fault after hrun =>
      rw [hrun] at htaken
      exact htaken.trans (inside_take (htaken.locate hp) hchild)

theorem inside_discard (hp : d.locate p = .ok l) (hname : name ≠ "..") :
    Inside l d (d.discard (p.child name)).2 := by
  have htaken : Inside l d (d.take (.unlink (p.child name))).2 :=
    inside_take hp ⟨name, hname, rfl⟩
  rw [discard]
  split
  · next path after hrun =>
      rw [hrun] at htaken
      exact htaken
  · exact htaken

end LinkShelf.Disk

namespace LinkShelf.CrashLog

open Disk

variable {shown : String → Bool}

theorem exists_of_path_eq_ok {e : Environment} {directory : Option Path} {file : Path}
    (hfile : path e directory = .ok file) : ∃ p : Path, file = p.child fileName := by
  unfold path at hfile
  split at hfile
  all_goals
    obtain ⟨place, -, hexpand⟩ := bind_eq_ok.mp hfile
    obtain ⟨expanded, -, hchild⟩ := bind_eq_ok.mp hexpand
    exact ⟨expanded, (Except.ok.inj hchild).symm⟩

theorem spares_record (hhidden : shown fileName = false) (s : Surroundings) (f : Failure)
    (context : String) (directory : Option Path) (d : Disk) :
    Spares shown d (record s f context directory d).2 := by
  rw [record]
  split
  · exact .refl
  · next file hfile =>
      obtain ⟨expanded, rfl⟩ := exists_of_path_eq_ok hfile
      have hmade : Spares shown d (d.makeDirectories (expanded.child fileName).parent).2 :=
        spares_makeDirectories _ d
      simp only [append]
      split
      · exact hmade
      · exact hmade
      · exact hmade.trans (spares_append (by decide) hhidden expanded _ _)

end LinkShelf.CrashLog
