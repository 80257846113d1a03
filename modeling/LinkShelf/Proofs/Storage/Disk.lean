import LinkShelf.Proofs.Operation
import LinkShelf.Proofs.Outcome
import LinkShelf.Proofs.Storage.FileSystem
import LinkShelf.Storage.Disk

/-!
What storing and discarding a file does to the names that are shown in a directory. Main statements:
either the file is put under its name, or what is shown is as it was (`takeAll_storing`,
`store_spec`); either the file is gone, or the disk is as it was (`discard_cases`).
-/

namespace LinkShelf.Disk

open FileSystem (Agree SameDirectories walk_of_sameDirectories walk_concat sameDirectories_put_file
  sameDirectories_drop node?_put)

variable {d other : Disk} {p : Path} {l : Location} {name : String}

/-! ## Locations -/

theorem locate_eq_ok : d.locate p = .ok l ↔
    '\x00' ∉ p.text.toList ∧ p.text.utf8ByteSize ≤ maxPathBytes ∧
      d.files.walk p.text (if p.start = .here then d.workingDirectory else []) p.parts = .ok l := by
  rw [locate]
  split
  · next hend =>
      have hmem : '\x00' ∈ p.text.toList := by simpa using hend
      simp [hmem]
  · next hend =>
      have hmem : '\x00' ∉ p.text.toList := by simpa using hend
      split
      · next hlong => simp [Nat.not_le.mpr hlong]
      · next hlong => simp [Nat.not_lt.mp hlong, hmem]

/-- Where a path leads depends on the directories alone. -/
theorem locate_of_sameDirectories (hsame : SameDirectories d.files other.files)
    (hstart : other.workingDirectory = d.workingDirectory) (hp : d.locate p = .ok l) :
    other.locate p = .ok l := by
  rw [locate_eq_ok] at hp ⊢
  rw [hstart]
  exact ⟨hp.1, hp.2.1, walk_of_sameDirectories hsame hp.2.2⟩

theorem locate_child {target : Location} (hname : name ≠ "..") (hp : d.locate p = .ok l)
    (hchild : d.locate (p.child name) = .ok target) :
    target = l ++ [name] ∧ d.files.isDirectory l = true :=
  walk_concat hname (locate_eq_ok.mp hp).2.2 (locate_eq_ok.mp hchild).2.2

/-- The way to a name in a directory that is there does not end before the name. -/
theorem locate_child_ne_missing (hp : d.locate p = .ok l)
    (hdirectory : d.files.isDirectory l = true) (hname : name ≠ "..") (path : String) :
    d.locate (p.child name) ≠ .error (.missing path) := by
  have hway : d.files.walk (p.child name).text
      (if p.start = .here then d.workingDirectory else []) p.parts = .ok l :=
    walk_of_sameDirectories FileSystem.sameDirectories_refl (locate_eq_ok.mp hp).2.2
  have hnode : d.files.node? l = some .directory := by
    simpa [FileSystem.isDirectory] using hdirectory
  rw [locate]
  split
  · simp
  · split
    · simp
    · change d.files.walk _ (if p.start = .here then d.workingDirectory else [])
        (p.parts ++ [name]) ≠ _
      rw [FileSystem.walk_append, hway]
      dsimp only
      rw [FileSystem.walk, hnode]
      dsimp only
      rw [if_neg hname]
      split
      · simp
      · simp [FileSystem.walk]

theorem read_child_eq_ok {content : ByteArray} (hp : d.locate p = .ok l) (hname : name ≠ "..") :
    d.read (p.child name) = .ok content ↔
      d.locate (p.child name) = .ok (l ++ [name]) ∧
        d.files.node? (l ++ [name]) = some (.file content) := by
  have hread : ∀ m path, d.files.read m path = .ok content ↔
      d.files.node? m = some (.file content) := by
    intro m path
    rw [FileSystem.read]
    cases d.files.node? m with
    | none => simp
    | some node => cases node <;> simp
  rw [Disk.read, bind_eq_ok]
  constructor
  · rintro ⟨m, hm, hnode⟩
    obtain ⟨rfl, -⟩ := locate_child hname hp hm
    exact ⟨hm, (hread _ _).mp hnode⟩
  · rintro ⟨hchild, hnode⟩
    exact ⟨_, hchild, (hread _ _).mpr hnode⟩

/-- Only a path that is cut off by its own text is no path for reading. -/
theorem read_eq_pathWithEnd_iff : d.read p = .error .pathWithEnd ↔ '\x00' ∈ p.text.toList := by
  have hread : ∀ m path, d.files.read m path ≠ .error .pathWithEnd := by
    intro m path
    rw [FileSystem.read]
    cases d.files.node? m with
    | none => simp
    | some node => cases node <;> simp
  constructor
  · intro hfault
    by_contra hend
    rw [Disk.read] at hfault
    cases hlocate : d.locate p with
    | ok m =>
        rw [hlocate] at hfault
        exact hread m _ hfault
    | error fault =>
        rw [hlocate, error_bind, Except.error.injEq] at hfault
        subst hfault
        rw [locate, if_neg (by simpa using hend)] at hlocate
        split at hlocate
        · cases hlocate
        · exact FileSystem.walk_ne_pathWithEnd hlocate
  · intro hend
    rw [Disk.read, locate, if_pos (by simpa using hend), error_bind]

/-! ## Steps -/

/-- The disk with other files. -/
theorem take_cases (s : FileStep) (d : Disk) :
    (∃ fault, d.take s = (.error fault, d)) ∨
      ∃ files, d.filesAfter s = .ok files ∧ d.take s = (.ok (), { d with files }) := by
  cases hrefusal : d.refusal? s with
  | some reason => exact .inl ⟨_, by rw [take, hrefusal]⟩
  | none =>
      cases hfiles : d.filesAfter s with
      | error fault => exact .inl ⟨fault, by rw [take, hrefusal, hfiles]; rfl⟩
      | ok files => exact .inr ⟨files, rfl, by rw [take, hrefusal, hfiles]; rfl⟩

section

variable {files : FileSystem} {content : ByteArray} {source target : Path}

theorem write_eq_ok {fs : FileSystem} {path : String} :
    fs.write l content path = .ok files ↔
      fs.isDirectory l = false ∧ files = fs.put l (.file content) := by
  rw [FileSystem.write]
  cases fs.isDirectory l <;> simp [eq_comm]

theorem filesAfter_create (hfiles : d.filesAfter (.create p) = .ok files) :
    ∃ l, d.locate p = .ok l ∧ d.files.isDirectory l = false ∧
      files = d.files.put l (.file .empty) := by
  obtain ⟨l, hl, hwrite⟩ := bind_eq_ok.mp hfiles
  exact ⟨l, hl, write_eq_ok.mp hwrite⟩

theorem filesAfter_extend (hfiles : d.filesAfter (.extend p content) = .ok files) :
    ∃ l, d.locate p = .ok l ∧ d.files.isDirectory l = false ∧
      files = d.files.put l (.file ((d.files.file? l).getD .empty ++ content)) := by
  obtain ⟨l, hl, happend⟩ := bind_eq_ok.mp hfiles
  exact ⟨l, hl, write_eq_ok.mp happend⟩

theorem filesAfter_move (hfiles : d.filesAfter (.move source target) = .ok files) :
    ∃ k m moved, d.locate source = .ok k ∧ d.locate target = .ok m ∧
      d.files.file? k = some moved ∧ d.files.isDirectory m = false ∧
      files = (d.files.drop k).put m (.file moved) := by
  obtain ⟨k, hk, hrest⟩ := bind_eq_ok.mp hfiles
  obtain ⟨m, hm, hmove⟩ := bind_eq_ok.mp hrest
  rw [FileSystem.move] at hmove
  cases hsource : d.files.file? k with
  | none => simp [hsource] at hmove
  | some moved =>
      cases hdirectory : d.files.isDirectory m with
      | true => simp [hsource, hdirectory] at hmove
      | false =>
          refine ⟨k, m, moved, hk, hm, hsource, hdirectory, ?_⟩
          simpa [hsource, hdirectory] using hmove.symm

theorem filesAfter_unlink (hfiles : d.filesAfter (.unlink p) = .ok files) :
    ∃ l removed, d.locate p = .ok l ∧ d.files.node? l = some (.file removed) ∧
      files = d.files.drop l := by
  obtain ⟨l, hl, hremove⟩ := bind_eq_ok.mp hfiles
  rw [FileSystem.remove] at hremove
  cases hnode : d.files.node? l with
  | none => simp [hnode] at hremove
  | some node =>
      cases node with
      | directory => simp [hnode] at hremove
      | file removed => exact ⟨l, removed, hl, hnode, by simpa [hnode] using hremove.symm⟩

end

/-! ## Agreement -/

/-- Whether two disks agree on the directories and on what is shown in one of them. -/
structure Agree (shown : String → Bool) (l : Location) (d other : Disk) : Prop where
  workingDirectory : other.workingDirectory = d.workingDirectory
  files : FileSystem.Agree shown l d.files other.files

variable {shown : String → Bool} {content : ByteArray}

theorem Agree.refl : Agree shown l d d := ⟨rfl, .refl⟩

theorem Agree.symm (h : Agree shown l d other) : Agree shown l other d :=
  ⟨h.workingDirectory.symm, h.files.symm⟩

theorem Agree.trans {mid : Disk} (h : Agree shown l d mid) (h' : Agree shown l mid other) :
    Agree shown l d other :=
  ⟨h'.workingDirectory.trans h.workingDirectory, h.files.trans h'.files⟩

theorem Agree.locate {m : Location} (h : Agree shown l d other) (hp : d.locate p = .ok m) :
    other.locate p = .ok m :=
  locate_of_sameDirectories h.files.directories h.workingDirectory hp

theorem Agree.locate_iff {m : Location} (h : Agree shown l d other) :
    other.locate p = .ok m ↔ d.locate p = .ok m :=
  ⟨h.symm.locate, h.locate⟩

section Hidden

variable (hp : d.locate p = .ok l) (hhidden : shown name = false) (hup : name ≠ "..")

include hp hhidden hup

theorem agree_create : Agree shown l d (d.take (.create (p.child name))).2 := by
  rcases take_cases (.create (p.child name)) d with ⟨fault, htake⟩ | ⟨files, hfiles, htake⟩
  · rw [htake]
    exact .refl
  · rw [htake]
    obtain ⟨k, hk, hfile, rfl⟩ := filesAfter_create hfiles
    obtain ⟨rfl, -⟩ := locate_child hup hp hk
    exact ⟨rfl, .put_hidden hhidden hfile⟩

theorem agree_extend (content : ByteArray) :
    Agree shown l d (d.take (.extend (p.child name) content)).2 := by
  rcases take_cases (.extend (p.child name) content) d with ⟨fault, htake⟩ | ⟨files, hfiles, htake⟩
  · rw [htake]
    exact .refl
  · rw [htake]
    obtain ⟨k, hk, hfile, rfl⟩ := filesAfter_extend hfiles
    obtain ⟨rfl, -⟩ := locate_child hup hp hk
    exact ⟨rfl, .put_hidden hhidden hfile⟩

theorem agree_unlink : Agree shown l d (d.take (.unlink (p.child name))).2 := by
  rcases take_cases (.unlink (p.child name)) d with ⟨fault, htake⟩ | ⟨files, hfiles, htake⟩
  · rw [htake]
    exact .refl
  · rw [htake]
    obtain ⟨k, removed, hk, hnode, rfl⟩ := filesAfter_unlink hfiles
    obtain ⟨rfl, -⟩ := locate_child hup hp hk
    exact ⟨rfl, .drop_hidden hhidden (by simp [FileSystem.isDirectory, hnode])⟩

end Hidden

/-! ## Storing and discarding -/

theorem takeAll_append (steps more : List FileStep) (d : Disk) :
    d.takeAll (steps ++ more) =
      match d.takeAll steps with
      | (.ok (), mid) => mid.takeAll more
      | (.error fault, mid) => (.error fault, mid) := by
  induction steps generalizing d with
  | nil => rfl
  | cons s rest ih =>
      rw [List.cons_append, takeAll, takeAll]
      rcases d.take s with ⟨result, mid⟩
      cases result with
      | ok u => exact ih mid
      | error fault => rfl

/-- The steps that put a file under a name by way of another file, which is filled piece by piece. -/
def storing (temporary target : Path) (pieces : List ByteArray) : List FileStep :=
  (.create temporary :: pieces.map (.extend temporary)) ++ [.move temporary target]

theorem replacing_eq_storing (temporary target : Path) (content : ByteArray) :
    replacing temporary target content = storing temporary target [content] := rfl

section

variable {temporary target : String} {pieces : List ByteArray}

/-- What is done to a hidden file before it is moved does not show. -/
theorem agree_takeAll_hidden {steps : List FileStep} (hp : d.locate p = .ok l)
    (hhidden : shown temporary = false) (htemporary : temporary ≠ "..")
    (hsteps : ∀ s ∈ steps, s ∈ FileStep.create (p.child temporary) ::
      pieces.map (.extend (p.child temporary))) : Agree shown l d (d.takeAll steps).2 := by
  induction steps generalizing d with
  | nil => exact .refl
  | cons s rest ih =>
      have hfirst : Agree shown l d (d.take s).2 := by
        rcases List.mem_cons.mp (hsteps s (by simp)) with rfl | hextend
        · exact agree_create hp hhidden htemporary
        · obtain ⟨piece, -, rfl⟩ := List.mem_map.mp hextend
          exact agree_extend hp hhidden htemporary piece
      rw [takeAll]
      rcases htake : d.take s with ⟨result, mid⟩
      rw [htake] at hfirst
      cases result with
      | ok u =>
          exact hfirst.trans (ih (hfirst.locate hp) fun other hother =>
            hsteps other (List.mem_cons_of_mem s hother))
      | error fault => exact hfirst

theorem file?_of_takeAll_extend {held : ByteArray} (hp : d.locate p = .ok l)
    (hhidden : shown temporary = false) (htemporary : temporary ≠ "..")
    (hheld : d.files.file? (l ++ [temporary]) = some held)
    (htaken : d.takeAll (pieces.map (.extend (p.child temporary))) = (.ok (), other)) :
    other.files.file? (l ++ [temporary]) = some (pieces.foldl (· ++ ·) held) := by
  induction pieces generalizing d held with
  | nil =>
      cases htaken
      exact hheld
  | cons piece rest ih =>
      have hagree := agree_extend hp hhidden htemporary piece
      rw [List.map_cons, takeAll] at htaken
      rcases take_cases (.extend (p.child temporary) piece) d with
        ⟨fault, hextend⟩ | ⟨files, hfiles, hextend⟩
      · rw [hextend] at htaken
        cases htaken
      · rw [hextend] at htaken hagree
        obtain ⟨k, hk, -, rfl⟩ := filesAfter_extend hfiles
        obtain ⟨rfl, -⟩ := locate_child htemporary hp hk
        apply ih (hagree.locate hp) ?_ htaken
        rw [hheld, FileSystem.file?, node?_put (by simp), if_pos rfl]
        rfl

/-- The file that is moved to its name holds what was put into the temporary one. -/
theorem takeAll_storing {content : ByteArray} (hp : d.locate p = .ok l)
    (hhidden : shown temporary = false) (htemporary : temporary ≠ "..") (htarget : target ≠ "..")
    (hpieces : pieces.foldl (· ++ ·) .empty = content) :
    (∃ after, d.takeAll (storing (p.child temporary) (p.child target) pieces) = (.ok (), after) ∧
      d.locate (p.child target) = .ok (l ++ [target]) ∧
      d.files.isDirectory (l ++ [target]) = false ∧
      Agree shown l { d with files := d.files.put (l ++ [target]) (.file content) } after) ∨
    ∃ fault after, d.takeAll (storing (p.child temporary) (p.child target) pieces) =
      (.error fault, after) ∧ Agree shown l d after := by
  rw [storing, takeAll_append]
  have hfilled : Agree shown l d (d.takeAll (.create (p.child temporary) ::
      pieces.map (.extend (p.child temporary)))).2 :=
    agree_takeAll_hidden hp hhidden htemporary fun s hs => hs
  rcases hfill : d.takeAll (.create (p.child temporary) ::
    pieces.map (.extend (p.child temporary))) with ⟨result, mid⟩
  replace hfilled : Agree shown l d mid := by rwa [hfill] at hfilled
  cases result with
  | error fault => exact .inr ⟨fault, mid, rfl, hfilled⟩
  | ok u =>
      have hsource : mid.files.file? (l ++ [temporary]) = some content := by
        rw [takeAll] at hfill
        have hcreated := agree_create hp hhidden htemporary
        rcases take_cases (.create (p.child temporary)) d with
          ⟨fault, hcreate⟩ | ⟨files, hfiles, hcreate⟩
        · rw [hcreate] at hfill
          cases hfill
        · rw [hcreate] at hfill hcreated
          obtain ⟨k, hk, -, rfl⟩ := filesAfter_create hfiles
          obtain ⟨rfl, -⟩ := locate_child htemporary hp hk
          rw [← hpieces]
          apply file?_of_takeAll_extend (hcreated.locate hp) hhidden htemporary ?_ hfill
          simp [FileSystem.file?, node?_put]
      dsimp only
      rw [takeAll]
      rcases take_cases (.move (p.child temporary) (p.child target)) mid with
        ⟨fault, hmove⟩ | ⟨files, hfiles, hmove⟩
      · exact .inr ⟨fault, mid, by rw [hmove], hfilled⟩
      · obtain ⟨k, m, moved, hk, hm, hmoved, hfile, rfl⟩ := filesAfter_move hfiles
        obtain ⟨rfl, -⟩ := locate_child htemporary (hfilled.locate hp) hk
        obtain ⟨rfl, -⟩ := locate_child htarget (hfilled.locate hp) hm
        obtain rfl : content = moved := Option.some.inj (hsource.symm.trans hmoved)
        have htemporaryFile : mid.files.isDirectory (l ++ [temporary]) = false := by
          rw [FileSystem.file?] at hsource
          split at hsource
          · next held hnode => simp [FileSystem.isDirectory, hnode]
          · cases hsource
        have hfree : d.files.isDirectory (l ++ [target]) = false :=
          (hfilled.files.directories _).symm.trans hfile
        refine .inl ⟨{ mid with
            files := (mid.files.drop (l ++ [temporary])).put (l ++ [target]) (.file content) },
          by rw [hmove]; rfl, hfilled.symm.locate hm, hfree, hfilled.workingDirectory, ?_⟩
        exact (hfilled.files.trans (.drop_hidden hhidden htemporaryFile)).put hfree

/-- As long as the last step is not taken, storing does not show. -/
theorem agree_takeAll_storing_take {n : Nat} (hp : d.locate p = .ok l)
    (hhidden : shown temporary = false) (htemporary : temporary ≠ "..")
    (hn : n ≤ pieces.length + 1) :
    Agree shown l d
      (d.takeAll ((storing (p.child temporary) (p.child target) pieces).take n)).2 := by
  have hsteps : ∀ s ∈ (storing (p.child temporary) (p.child target) pieces).take n,
      s ∈ FileStep.create (p.child temporary) :: pieces.map (.extend (p.child temporary)) := by
    intro s hs
    rw [storing, List.take_append_of_le_length (by simpa using hn)] at hs
    exact List.mem_of_mem_take hs
  exact agree_takeAll_hidden hp hhidden htemporary hsteps

end

theorem freeName_eq (taken : List String) (temporaryName : Nat → String) (fuel n : Nat) :
    ∃ m, freeName taken temporaryName fuel n = temporaryName m := by
  induction fuel generalizing n with
  | zero => exact ⟨n, rfl⟩
  | succ fuel ih =>
      rw [freeName]
      split
      · exact ih (n + 1)
      · exact ⟨n, rfl⟩

/-- Either a file is stored under its name, or what is shown is as it was. -/
theorem store_spec (content : ByteArray) (hp : d.locate p = .ok l) (hname : name ≠ "..")
    {temporaryName : Nat → String}
    (htemporary : ∀ n, shown (temporaryName n) = false ∧ temporaryName n ≠ "..") :
    (∃ after, d.store p name temporaryName content = (.ok (), after) ∧
      d.locate (p.child name) = .ok (l ++ [name]) ∧ d.files.isDirectory (l ++ [name]) = false ∧
      Agree shown l { d with files := d.files.put (l ++ [name]) (.file content) } after) ∨
    ∃ fault after, d.store p name temporaryName content = (.error fault, after) ∧
      Agree shown l d after := by
  obtain ⟨n, hn⟩ := freeName_eq (d.names p) temporaryName (d.names p).length 0
  have hwhole : [content].foldl (· ++ ·) .empty = content := ByteArray.empty_append
  rcases takeAll_storing hp (htemporary n).1 (htemporary n).2 hname hwhole with
    ⟨after, htaken, hrest⟩ | ⟨fault, after, htaken, hagree⟩
  · exact .inl ⟨after, by simp only [store, hn, replacing_eq_storing, htaken], hrest⟩
  · refine .inr ⟨fault, _, by simp only [store, hn, replacing_eq_storing, htaken]; rfl, ?_⟩
    exact hagree.trans (agree_unlink (hagree.locate hp) (htemporary n).1 (htemporary n).2)

/-- Either nothing is under a name afterwards, or the disk is as it was. -/
theorem discard_cases (hp : d.locate p = .ok l) (hdirectory : d.files.isDirectory l = true)
    (hname : name ≠ "..") :
    (d.discard (p.child name) = (.ok (), { d with files := d.files.drop (l ++ [name]) }) ∧
      d.files.isDirectory (l ++ [name]) = false) ∨
    ∃ fault, d.discard (p.child name) = (.error fault, d) := by
  cases hrefusal : d.refusal? (.unlink (p.child name)) with
  | some reason => exact .inr ⟨.device reason, by simp only [discard, take, hrefusal]⟩
  | none =>
      cases hchild : d.locate (p.child name) with
      | error fault =>
          have hfiles : d.filesAfter (.unlink (p.child name)) = .error fault := by
            simp only [filesAfter, hchild, error_bind]
          refine .inr ⟨fault, ?_⟩
          simp only [discard, take, hrefusal, hfiles, settle]
          split
          · next result path after heq =>
              cases heq
              exact absurd hchild (locate_child_ne_missing hp hdirectory hname path)
          · rfl
      | ok m =>
          obtain ⟨rfl, -⟩ := locate_child hname hp hchild
          have hfiles : d.filesAfter (.unlink (p.child name)) =
              d.files.remove (l ++ [name]) (p.child name).text := by
            simp only [filesAfter, hchild, ok_bind]
          cases hnode : d.files.node? (l ++ [name]) with
          | none =>
              refine .inl ⟨?_, by simp [FileSystem.isDirectory, hnode]⟩
              rw [FileSystem.drop_eq_self (by simp) hnode]
              simp only [discard, take, hrefusal, hfiles, FileSystem.remove, hnode, settle]
          | some node =>
              cases node with
              | directory =>
                  refine .inr ⟨.isDirectory (p.child name).text, ?_⟩
                  simp only [discard, take, hrefusal, hfiles, FileSystem.remove, hnode, settle]
              | file removed =>
                  refine .inl ⟨?_, by simp [FileSystem.isDirectory, hnode]⟩
                  simp only [discard, take, hrefusal, hfiles, FileSystem.remove, hnode, settle]

/-! ## Directories that are there -/

theorem makeDirectory_of_isDirectory (hp : d.locate p = .ok l)
    (hdirectory : d.files.isDirectory l = true) : d.makeDirectory p = (.ok (), d) := by
  have hnode : d.files.node? l = some .directory := by
    simpa [FileSystem.isDirectory] using hdirectory
  have hfound : d.isDirectory p = .ok true := by
    simp [isDirectory, look, hp, hnode, Except.map]
  simp only [makeDirectory, hp, ok_bind, FileSystem.makeDirectory, hnode, settle, hfound]

theorem makeDirectories_of_isDirectory (hp : d.locate p = .ok l)
    (hdirectory : d.files.isDirectory l = true) : d.makeDirectories p = (.ok (), d) := by
  have hwhole : p.upTo p.parts.length = p := by simp [Path.upTo]
  cases hlength : p.parts.length with
  | zero =>
      rw [hlength] at hwhole
      rw [makeDirectories, hlength, makeWay, hwhole, makeDirectory_of_isDirectory hp hdirectory]
  | succ n =>
      rw [hlength] at hwhole
      rw [makeDirectories, hlength, makeWay, hwhole, makeDirectory_of_isDirectory hp hdirectory]

/-- A directory that was made is there. -/
theorem exists_of_makeDirectory_eq_ok (hmade : d.makeDirectory p = (.ok (), other)) :
    ∃ l, other.locate p = .ok l ∧ other.files.isDirectory l = true := by
  have hfound : d.isDirectory p = .ok true →
      ∃ l, d.locate p = .ok l ∧ d.files.isDirectory l = true := by
    intro hdirectory
    rw [isDirectory, look] at hdirectory
    cases hlocate : d.locate p with
    | ok l =>
        refine ⟨l, rfl, ?_⟩
        rw [hlocate] at hdirectory
        exact Except.ok.inj hdirectory
    | error fault =>
        rw [hlocate] at hdirectory
        cases fault <;> simp [Except.map] at hdirectory
  rw [makeDirectory] at hmade
  cases hfiles : (do d.files.makeDirectory (← d.locate p) p.text) with
  | error fault =>
      rw [hfiles] at hmade
      simp only [settle] at hmade
      split at hmade
      · next hdirectory =>
          cases hmade
          exact hfound hdirectory
      · cases hmade
      · cases hmade
  | ok files =>
      rw [hfiles] at hmade
      cases hmade
      obtain ⟨l, hlocate, hmake⟩ := bind_eq_ok.mp hfiles
      rw [FileSystem.makeDirectory] at hmake
      split at hmake
      · cases hmake
      · next hnode =>
          cases hmake
          have hroot : l ≠ [] := by
            rintro rfl
            simp [FileSystem.node?] at hnode
          have hkept : ∀ m, d.files.isDirectory m = true →
              (d.files.put l .directory).isDirectory m = true := by
            intro m hm
            rw [FileSystem.isDirectory, node?_put hroot]
            split
            · rfl
            · exact hm
          refine ⟨l, ?_, ?_⟩
          · rw [locate_eq_ok] at hlocate ⊢
            exact ⟨hlocate.1, hlocate.2.1, FileSystem.walk_mono hkept hlocate.2.2⟩
          · rw [FileSystem.isDirectory, node?_put hroot, if_pos rfl]
            rfl

theorem exists_of_makeDirectories_eq_ok (hmade : d.makeDirectories p = (.ok (), other)) :
    ∃ l, other.locate p = .ok l ∧ other.files.isDirectory l = true := by
  have hwhole : p.upTo p.parts.length = p := by simp [Path.upTo]
  rw [makeDirectories] at hmade
  generalize hlength : p.parts.length = n at hmade hwhole
  -- Whatever is tried before, what succeeds last is to make the directory itself.
  cases n with
  | zero =>
      rw [makeWay, hwhole] at hmade
      exact exists_of_makeDirectory_eq_ok hmade
  | succ n =>
      rw [makeWay, hwhole] at hmade
      split at hmade
      · split at hmade
        · exact exists_of_makeDirectory_eq_ok hmade
        · next hfailed => exact absurd hmade (hfailed other)
      · exact exists_of_makeDirectory_eq_ok hmade

/-! ## Steps as operations -/

section

variable {α β : Type} {f : Disk → Except FileFault α × Disk}

theorem ends_attempt {post : Except Failure α → Disk → Prop}
    (hok : ∀ a after, f d = (.ok a, after) → post (.ok a) after)
    (herror : ∀ fault after, f d = (.error fault, after) → post (.error (.file fault)) after) :
    (attempt f).Ends d post := by
  refine Operation.ends_stepped.mpr ?_
  rcases hrun : f d with ⟨result, after⟩
  cases result with
  | ok a => exact hok a after hrun
  | error fault => exact herror fault after hrun

/-- A step that succeeded is followed by the next operation; its fault ends the sequence. -/
theorem ends_attempt_bind {next : α → Operation Disk β} {post : Except Failure β → Disk → Prop}
    (hnext : ∀ a after, f d = (.ok a, after) → (next a).Ends after post)
    (hfail : ∀ fault after, f d = (.error fault, after) → post (.error (.file fault)) after) :
    (attempt f >>= next).Ends d post := by
  have hrun : (attempt f).Ends d fun result after =>
      (∃ a, f d = (.ok a, after) ∧ result = .ok a) ∨
        ∃ fault, f d = (.error fault, after) ∧ result = .error (.file fault) :=
    ends_attempt (fun a after hrun => .inl ⟨a, hrun, rfl⟩)
      fun fault after hrun => .inr ⟨fault, hrun, rfl⟩
  refine Operation.ends_bind hrun ?_ ?_
  · rintro a after (⟨_, hrun, ⟨⟩⟩ | ⟨fault, -, ⟨⟩⟩)
    exact hnext a after hrun
  · rintro fault after (⟨a, -, ⟨⟩⟩ | ⟨_, hrun, ⟨⟩⟩)
    exact hfail _ after hrun

end

end LinkShelf.Disk
