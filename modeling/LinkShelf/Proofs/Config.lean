import LinkShelf.Config
import LinkShelf.Proofs.Operation
import LinkShelf.Proofs.Storage.Disk
import LinkShelf.Proofs.Storage.PathText
import LinkShelf.Proofs.Text.Encoding
import LinkShelf.Proofs.Toml.RoundTrip

/-!
Configurations that are saved and loaded again. Main statement: a configuration that was saved is
the one that its directory has from then on, and asking for it changes nothing (`load_save`).
-/

namespace LinkShelf

namespace Disk

variable {d after : Disk} {p : Path} {content : ByteArray}

/-- What was written to a file is there, wherever its path leads. -/
theorem read_of_write (hwrite : d.write p content = (.ok (), after)) :
    after.read p = .ok content ∧ after.present p = .ok true := by
  rw [write] at hwrite
  cases hfiles : (do d.files.write (← d.locate p) content p.text : Except FileFault FileSystem) with
  | error fault => simp [hfiles, settle] at hwrite
  | ok files =>
      obtain ⟨l, hl, hput⟩ := bind_eq_ok.mp hfiles
      obtain ⟨hfile, rfl⟩ := write_eq_ok.mp hput
      obtain rfl : { d with files := d.files.put l (.file content) } = after := by
        simpa [hfiles, settle] using hwrite
      have hroot : l ≠ [] := by
        rintro rfl
        simp [FileSystem.isDirectory, FileSystem.node?] at hfile
      have hnode : (d.files.put l (.file content)).node? l = some (.file content) := by
        rw [FileSystem.node?_put hroot, if_pos rfl]
      have hafter : Disk.locate { d with files := d.files.put l (.file content) } p = .ok l :=
        locate_of_sameDirectories (FileSystem.sameDirectories_put_file hfile) rfl hl
      constructor
      · rw [read, hafter, ok_bind, FileSystem.read, hnode]
      · rw [present, look, hafter]
        simp only [hnode]
        rfl

end Disk

namespace Config

open Operation

variable {c : Config} {d after : Disk}

/-- A configuration as the program makes them: the version is one that is understood, the limit is
not below zero, and the path of the bookmarks could have been read from a text. -/
structure IsOrdinary (c : Config) : Prop where
  version : ∃ n : Int, c.version = .int n ∧ n ≤ configVersion
  created : ∃ s, c.created = .text s
  storePath : c.storePath.IsNormal
  defaultQuery : ∃ s, c.defaultQuery = .text s
  limit : ∃ n : Int, c.limit = .int n ∧ 0 ≤ n

def sections (c : Config) : List Toml.Section := [
  ("store", [("version", c.version), ("created", c.created), ("path", .text c.storePath.text)]),
  ("query", [("default", c.defaultQuery), ("limit", c.limit)])]

theorem ofSections_sections (c : Config) : Toml.ofSections c.sections = c.toDocument := rfl

theorem IsOrdinary.isFlat (hc : c.IsOrdinary) : Toml.IsFlat c.sections := by
  obtain ⟨version, hversion, -⟩ := hc.version
  obtain ⟨created, hcreated⟩ := hc.created
  obtain ⟨query, hquery⟩ := hc.defaultQuery
  obtain ⟨limit, hlimit, -⟩ := hc.limit
  refine ⟨?_, ?_, ?_⟩
  · show (["store", "query"] : List String).Nodup
    decide
  · rw [sections, List.forall_mem_cons, List.forall_mem_singleton]
    constructor
    · show (["version", "created", "path"] : List String).Nodup
      decide
    · show (["default", "limit"] : List String).Nodup
      decide
  · simp only [sections, hversion, hcreated, hquery, hlimit, List.mem_cons, forall_eq_or_imp,
      List.not_mem_nil, false_implies, implies_true, Toml.Value.isPlain, and_self]

/-- The document of a configuration holds that configuration: no standard value takes the place of
one that is there. -/
theorem IsOrdinary.ofDocument_toDocument (hc : c.IsOrdinary) :
    ofDocument c.directory c.toDocument = .ok c := by
  obtain ⟨version, hversion, hunderstood⟩ := hc.version
  obtain ⟨limit, hlimit, hnatural⟩ := hc.limit
  have hstored : checkedVersion c.version = .ok c.version := by
    rw [hversion]
    exact if_pos hunderstood
  have hlimited : checkedLimit (c.directory.child fileName) c.limit = .ok c.limit := by
    rw [hlimit]
    simp [checkedLimit, hnatural]
  have hpath : pathOf (.text c.storePath.text) = .ok c.storePath :=
    congrArg Except.ok (Path.ofText_text hc.storePath)
  show (do
    let version ← checkedVersion c.version
    let limit ← checkedLimit (c.directory.child fileName) c.limit
    let storePath ← pathOf (.text c.storePath.text)
    return { c with version, limit, storePath }) = .ok c
  rw [hstored, hlimited, hpath]
  rfl

theorem IsOrdinary.documentOfBytes_write (hc : c.IsOrdinary)
    (hwhole : (Toml.write c.toDocument).fault? = none) :
    documentOfBytes (String.ofList (Toml.write c.toDocument).text).toUTF8 = .ok c.toDocument := by
  rw [← ofSections_sections] at hwhole ⊢
  rw [documentOfBytes, Text.decode_toUTF8]
  simp only [Toml.read_write hc.isFlat hwhole]

/-- Saving that succeeded wrote the whole document. -/
theorem ends_save (c : Config) (d : Disk) :
    (save c).Ends d fun result after => result = .ok () →
      (Toml.write c.toDocument).fault? = none ∧
        ∃ made, Disk.write c.path (String.ofList (Toml.write c.toDocument).text).toUTF8 made =
          (.ok (), after) := by
  refine Disk.ends_attempt_bind ?_ nofun
  intro _ made _
  refine Disk.ends_attempt_bind ?_ nofun
  intro _ after hwritten
  cases hfault : (Toml.write c.toDocument).fault? with
  | some fault => exact fun _ => nofun
  | none => exact ends_pure.mpr fun _ => ⟨rfl, made, hwritten⟩

/-- A configuration that was saved is the one that its directory has from then on, and asking for it
changes nothing. -/
theorem load_save {c : Config} {d : Disk} {after : Reported Disk} (hc : c.IsOrdinary)
    (hsaved : (save c).execute d = (.ok (), after)) :
    load after.state c.directory = .ok c ∧
      ∀ s, (loadOrCreate s (some c.directory)).execute after.state =
        (.ok c, ⟨after.state, []⟩) := by
  have hends := (ends_save c d).execute
  rw [hsaved] at hends
  obtain ⟨hwhole, made, hwrite⟩ := hends rfl
  obtain ⟨hread, hpresent⟩ := Disk.read_of_write hwrite
  have hload : load after.state c.directory = .ok c := by
    have hcontent : (do
        if ← after.state.present (c.directory.child fileName) then
          after.state.read (c.directory.child fileName)
        else throw (.missingConfig (c.directory.child fileName).text) :
          Except FileFault ByteArray) =
        .ok (String.ofList (Toml.write c.toDocument).text).toUTF8 := by
      rw [path] at hread hpresent
      rw [hpresent, ok_bind, if_pos rfl, hread]
    rw [load, hcontent]
    show (documentOfBytes _ >>= ofDocument c.directory) = .ok c
    rw [hc.documentOfBytes_write hwhole, ok_bind, hc.ofDocument_toDocument]
  refine ⟨hload, fun s => ?_⟩
  -- The file is there, so that no standard configuration is written.
  have hfound : (after.state.present (c.directory.child fileName)).mapError Failure.file =
      .ok true := by
    rw [path] at hpresent
    rw [hpresent]
    rfl
  change (settled ((after.state.present (c.directory.child fileName)).mapError Failure.file) >>=
    fun found => if found then settled (load after.state c.directory) else
      (do
        save (standard c.directory s.now)
        return standard c.directory s.now : Operation Disk Config)) ⟨after.state, []⟩ = _
  rw [hfound, hload]
  rfl

/-- A configuration with no standard value in it. -/
def oddConfig : Config where
  directory := ⟨.here, ["settings", "shelf"]⟩
  version := .int (-3)
  created := .text ""
  storePath := ⟨.doubleRoot, ["my marks", ".."]⟩
  defaultQuery := .text "tag:\"a\\b\"\n\u0007\u007f"
  limit := .int 0

/-- A disk with an older configuration in the same place. -/
def oldSettings : Disk where
  files := ⟨[(["settings"], .directory), (["settings", "shelf"], .directory),
    (["settings", "shelf", "tagmarks.toml"], .file "[query]\nlimit = 7\n".toUTF8)]⟩
  workingDirectory := []
  refusal? := fun _ => none

theorem load_save_oddConfig :
    oddConfig.IsOrdinary ∧ ((save oddConfig).execute oldSettings).1 = .ok () ∧
      load ((save oddConfig).execute oldSettings).2.state oddConfig.directory = .ok oddConfig := by
  have hordinary : oddConfig.IsOrdinary := by
    refine ⟨⟨-3, rfl, by decide⟩, ⟨_, rfl⟩, ?_, ⟨_, rfl⟩, ⟨0, rfl, by decide⟩⟩
    intro name hname
    have hnames : name = "my marks" ∨ name = ".." := by simpa [oddConfig] using hname
    rcases hnames with rfl | rfl <;> exact ⟨by decide, by decide, by decide⟩
  have hok : ((save oddConfig).execute oldSettings).1.isOk = true := by decide +kernel
  rcases hrun : (save oddConfig).execute oldSettings with ⟨fault | ⟨⟩, after⟩
  · rw [hrun] at hok
    cases hok
  · exact ⟨hordinary, rfl, (load_save hordinary hrun).1⟩

end Config

end LinkShelf
