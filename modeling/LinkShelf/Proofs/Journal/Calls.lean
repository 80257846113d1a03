import LinkShelf.Journal.Basic
import LinkShelf.Proofs.Operation
import LinkShelf.Proofs.Storage.Frame
import Mathlib.Data.List.Induction

/-!
Calls to a journal: its settings, logs that are opened, handlers that are taken away, and events.
Main statements: after any calls the handlers are told apart by their numbers, the logs of those
that are attached are there, and one of them at most writes to the console (`isSound_takeAll`);
and all but errors are left out exactly after the journal was told to be quiet and before anything
else sets its level (`level_takeAll_eq_error_iff`).
-/

namespace LinkShelf

open Operation

/-! ## Files that are kept -/

namespace Disk

variable {d mid after : Disk} {p : Path} {l : Location}

/-- The bytes of the file at a place; none where there is no file. -/
def contents (d : Disk) (place : Location) : ByteArray := (d.files.file? place).getD .empty

/-- Whether a disk has the files of another one with what they hold; a file that it has besides is
empty. -/
structure Keeps (d after : Disk) : Prop where
  contents : ∀ place, after.contents place = d.contents place
  present : ∀ place, (d.files.file? place).isSome = true → (after.files.file? place).isSome = true

theorem Keeps.refl : Keeps d d := ⟨fun _ => rfl, fun _ => id⟩

theorem Keeps.trans (h : Keeps d mid) (h' : Keeps mid after) : Keeps d after :=
  ⟨fun place => (h'.contents place).trans (h.contents place),
    fun place hplace => h'.present place (h.present place hplace)⟩

theorem file?_root (fs : FileSystem) : fs.file? [] = none := by
  simp [FileSystem.file?, FileSystem.node?]

theorem ne_nil_of_file? {fs : FileSystem} {bytes : ByteArray} (hfile : fs.file? l = some bytes) :
    l ≠ [] := by
  rintro rfl
  rw [file?_root] at hfile
  cases hfile

theorem file?_put_file (fs : FileSystem) (hl : l ≠ []) (bytes : ByteArray) (place : Location) :
    (fs.put l (.file bytes)).file? place = if place = l then some bytes else fs.file? place := by
  simp only [FileSystem.file?, FileSystem.node?_put hl]
  by_cases hplace : place = l
  · rw [if_pos hplace, if_pos hplace]
  · rw [if_neg hplace, if_neg hplace]

theorem Spares.keeps (h : Spares (fun _ => true) d after) : Keeps d after := by
  have hfile : ∀ place, after.files.file? place = d.files.file? place := by
    intro place
    rcases List.eq_nil_or_concat place with rfl | ⟨front, name, rfl⟩
    · rw [file?_root, file?_root]
    · rw [List.concat_eq_append]
      exact h.files front name rfl
  refine ⟨fun place => ?_, fun place hplace => ?_⟩
  · rw [contents, hfile, contents]
  · rw [hfile]
    exact hplace

/-- Where no name leads upwards, the names lead where they say. -/
theorem walk_eq_append {fs : FileSystem} {path : String} {names : List String}
    {target : Location} (hnames : ".." ∉ names) (hwalk : fs.walk path l names = .ok target) :
    target = l ++ names := by
  induction names generalizing l with
  | nil =>
      rw [FileSystem.walk, Except.ok.injEq] at hwalk
      rw [List.append_nil, hwalk]
  | cons name rest ih =>
      rw [List.mem_cons, not_or] at hnames
      obtain ⟨-, ⟨hup, -⟩ | ⟨-, -, hrest⟩⟩ := FileSystem.walk_cons_eq_ok.mp hwalk
      · exact absurd hup.symm hnames.1
      · rw [ih hnames.2 hrest, List.append_assoc, List.singleton_append]

theorem not_mem_parts_absolute (d : Disk) (p : Path) : ".." ∉ (d.absolute p).parts := by
  have hfold : ∀ (names l : List String), ".." ∉ l →
      ".." ∉ names.foldl (fun l name => if name = ".." then l.dropLast else l ++ [name]) l := by
    intro names
    induction names with
    | nil => exact fun l hl => hl
    | cons name rest ih =>
        intro l hl
        rw [List.foldl_cons]
        apply ih
        split
        · exact fun hup => hl ((List.dropLast_sublist l).subset hup)
        · next hname => simpa [hl] using Ne.symm hname
  exact hfold _ [] List.not_mem_nil

theorem locate_absolute (hl : mid.locate (d.absolute p) = .ok l) : l = (d.absolute p).parts := by
  have hstart : (d.absolute p).start ≠ .here := by
    rw [absolute]
    split
    · nofun
    · nofun
  have hwalk := (locate_eq_ok.mp hl).2.2
  rw [if_neg hstart] at hwalk
  exact walk_eq_append (not_mem_parts_absolute d p) hwalk

/-- A file that nothing is added to keeps its bytes, and is made if it is missing. -/
theorem keeps_append_empty {result : Except FileFault Unit}
    (hrun : d.append p .empty = (result, after)) : Keeps d after ∧
      (result = .ok () → ∃ l, d.locate p = .ok l ∧ (after.files.file? l).isSome = true) := by
  rw [append] at hrun
  cases hfiles : (do d.files.append (← d.locate p) .empty p.text) with
  | error fault =>
      rw [hfiles] at hrun
      cases hrun
      refine ⟨.refl, fun hok => ?_⟩
      cases hok
  | ok files =>
      rw [hfiles] at hrun
      cases hrun
      obtain ⟨l, hl, happend⟩ := bind_eq_ok.mp hfiles
      obtain ⟨hfile, rfl⟩ := write_eq_ok.mp happend
      have hroot : l ≠ [] := by
        rintro rfl
        simp [FileSystem.isDirectory, FileSystem.node?] at hfile
      refine ⟨⟨fun place => ?_, fun place hplace => ?_⟩, fun _ => ⟨l, hl, ?_⟩⟩
      · simp only [contents, file?_put_file _ hroot]
        split
        · next hplace => rw [hplace, ByteArray.append_empty, Option.getD_some]
        · rfl
      · simp only [file?_put_file _ hroot]
        split
        · rfl
        · exact hplace
      · simp only [file?_put_file _ hroot, if_true, Option.isSome_some]

end Disk

/-- Whether a handler writes all to the console, or what is no debugging to a log that is there. -/
def Handler.IsSet (d : Disk) (h : Handler) : Prop :=
  match h.outlet with
  | .console => h.least = .debug
  | .file place => h.least = .info ∧ (d.files.file? place).isSome = true
  | .nowhere => False

theorem Handler.IsSet.mono {d after : Disk} {h : Handler} (hh : h.IsSet d)
    (hpresent : ∀ place,
      (d.files.file? place).isSome = true → (after.files.file? place).isSome = true) :
    h.IsSet after := by
  obtain ⟨number, outlet, least⟩ := h
  cases outlet with
  | console => exact hh
  | file place => exact ⟨hh.1, hpresent place hh.2⟩
  | nowhere => exact hh

namespace Journal

/-! ## Calls -/

/-- A call to the journal: a setting, a change of its handlers, or an event that is reported. -/
inductive Call where
  | quiet (wanted : Bool)
  | debug
  | openFile (directory : Path)
  | detach (number? : Option Nat)
  | write (s : Surroundings) (e : Event)

/-- The journal after a call. A log that cannot be opened leaves it as it was, but for directories
that were made. -/
def take (j : Journal) : Call → Journal
  | .quiet wanted => if wanted then j.quiet else j
  | .debug => j.debug
  | .openFile directory => ((openFile directory).execute j).2.state
  | .detach none => j
  | .detach (some number) => j.detach number
  | .write s e => j.write s e

/-- The journal after some calls in order. -/
def takeAll (j : Journal) (calls : List Call) : Journal := calls.foldl take j

variable {j mid after : Journal} {c : Call}

theorem takeAll_append (j : Journal) (calls more : List Call) :
    j.takeAll (calls ++ more) = (j.takeAll calls).takeAll more := List.foldl_append

theorem takeAll_concat (j : Journal) (calls : List Call) (c : Call) :
    j.takeAll (calls ++ [c]) = (j.takeAll calls).take c := takeAll_append j calls [c]

/-- The level after a log was opened: information is let through. -/
def loosened (level : Level) : Level :=
  if level = .unset ∨ Level.info.value < level.value then .info else level

/-- Whether a level leaves out no information, or all but errors. -/
def IsUsual (level : Level) : Prop :=
  level ≠ .unset ∧ (level.value ≤ Level.info.value ∨ level = .error)

theorem isUsual_loosened (level : Level) : IsUsual (loosened level) := by
  rw [loosened]
  split
  · exact ⟨by decide, .inl (Int.le_refl _)⟩
  · next hlevel =>
      rw [not_or, Int.not_lt] at hlevel
      exact ⟨hlevel.1, .inl hlevel.2⟩

theorem loosened_ne_error (level : Level) : loosened level ≠ .error := by
  rw [loosened]
  split
  · decide
  · next hlevel =>
      rintro rfl
      exact hlevel (.inr (by decide))

/-- Opening a log either fails and leaves handlers and level, or adds a handler for a log that is
there; the files keep what they hold. -/
theorem openFile_opens (directory : Path) :
    (openFile directory).Ends j fun result after => ∃ disk, j.disk.Keeps disk ∧
      ((∃ fault, result = .error fault ∧ after = { j with disk }) ∨
        ∃ place, result = .ok j.made ∧ (disk.files.file? place).isSome = true ∧
          after = { ({ j with disk } : Journal).attach (.file place) .info with
            level := loosened j.level }) := by
  have hlog : (within (·.disk) (fun disk (j : Journal) => { j with disk }) do
      let d ← Operation.current
      let log := d.absolute (directory.child fileName)
      Disk.attempt (Disk.makeDirectories directory)
      Disk.attempt (Disk.append log .empty)
      return log.parts).Ends j fun result after => ∃ disk, j.disk.Keeps disk ∧
        after = { j with disk } ∧
        ∀ place, result = .ok place → (disk.files.file? place).isSome = true := by
    refine ends_within (ends_current_bind.mpr ?_)
    generalize hplace : j.disk.absolute (directory.child fileName) = log
    have hmade := (Disk.spares_makeDirectories directory j.disk).keeps
    refine Disk.ends_attempt_bind ?_ fun fault made hmake => ?_
    · intro u made hmake
      rw [hmake] at hmade
      refine Disk.ends_attempt_bind ?_ fun fault last hopen => ?_
      · intro u last hopen
        obtain ⟨hkeeps, hpresent⟩ := Disk.keeps_append_empty hopen
        refine ends_pure.mpr ⟨last, hmade.trans hkeeps, rfl, ?_⟩
        rintro place ⟨⟩
        obtain ⟨l, hl, hfile⟩ := hpresent rfl
        subst hplace
        rwa [← Disk.locate_absolute hl]
      · exact ⟨last, hmade.trans (Disk.keeps_append_empty hopen).1, rfl, nofun⟩
    · rw [hmake] at hmade
      exact ⟨made, hmade, rfl, nofun⟩
  refine ends_bind hlog ?_ ?_
  · rintro place after ⟨disk, hkeeps, rfl, hpresent⟩
    refine ends_current_bind.mpr (ends_change_bind.mpr (ends_pure.mpr ?_))
    exact ⟨disk, hkeeps, .inr ⟨place, rfl, hpresent place rfl, rfl⟩⟩
  · rintro fault after ⟨disk, hkeeps, rfl, -⟩
    exact ⟨disk, hkeeps, .inl ⟨fault, rfl, rfl⟩⟩

/-- The journal after a call that opens a log. -/
theorem take_openFile (j : Journal) (directory : Path) : ∃ disk, j.disk.Keeps disk ∧
    ((∃ fault, ((openFile directory).execute j).1 = .error fault ∧
        j.take (.openFile directory) = { j with disk }) ∨
      ∃ place, ((openFile directory).execute j).1 = .ok j.made ∧
        (disk.files.file? place).isSome = true ∧
        j.take (.openFile directory) = { ({ j with disk } : Journal).attach (.file place) .info with
          level := loosened j.level }) :=
  (openFile_opens directory).execute

/-! ## Events -/

/-- Whether a journal has the handlers and the level of another one, and all files of its disk. -/
structure Continues (j after : Journal) : Prop where
  handlers : after.handlers = j.handlers
  level : after.level = j.level
  made : after.made = j.made
  present : ∀ place,
    (j.disk.files.file? place).isSome = true → (after.disk.files.file? place).isSome = true

theorem Continues.refl : Continues j j := ⟨rfl, rfl, rfl, fun _ => id⟩

theorem Continues.trans (h : Continues j mid) (h' : Continues mid after) : Continues j after :=
  ⟨h'.handlers.trans h.handlers, h'.level.trans h.level, h'.made.trans h.made,
    fun place hplace => h'.present place (h.present place hplace)⟩

theorem continues_tell (text : String) (j : Journal) : Continues j (j.tell text) :=
  ⟨rfl, rfl, rfl, fun _ => id⟩

variable (s : Surroundings) (e : Event)

theorem continues_handle (j : Journal) (h : Handler) : Continues j (handle s e j h) := by
  rw [handle]
  split
  · exact .refl
  · split
    · exact continues_tell _ j
    · next place _ =>
        split
        · next bytes hfile =>
            refine ⟨rfl, rfl, rfl, fun other hother => ?_⟩
            rw [Disk.file?_put_file _ (Disk.ne_nil_of_file? hfile)]
            split
            · rfl
            · exact hother
        · exact .refl
    · exact .refl

theorem continues_handleAll (j : Journal) (handlers : List Handler) :
    Continues j (handlers.foldl (handle s e) j) := by
  induction handlers generalizing j with
  | nil => exact .refl
  | cons h rest ih => exact (continues_handle s e j h).trans (ih _)

theorem continues_write (j : Journal) : Continues j (j.write s e) := by
  rw [write]
  split
  · exact .refl
  · split
    · split
      · exact .refl
      · exact continues_tell _ j
    · exact continues_handleAll s e j _

/-! ## Handlers -/

/-- What all journals have in common that calls lead to. -/
structure IsSound (j : Journal) : Prop where
  handlers : ∀ h ∈ j.handlers, h.IsSet j.disk
  order : j.handlers.Pairwise (·.number < ·.number)
  made : ∀ h ∈ j.handlers, h.number < j.made
  console : (j.handlers.countP fun h => h.outlet = .console) ≤ 1
  level : j.handlers ≠ [] → IsUsual j.level

theorem isSound_fresh (d : Disk) : IsSound { disk := d } :=
  ⟨nofun, .nil, nofun, Nat.zero_le 1, by simp⟩

theorem IsSound.continues (hj : j.IsSound) (h : Continues j after) : after.IsSound := by
  obtain ⟨hhandlers, hlevel, hmade, hpresent⟩ := h
  refine ⟨?_, ?_, ?_, ?_, ?_⟩
  · intro h hh
    rw [hhandlers] at hh
    exact (hj.handlers h hh).mono hpresent
  · rw [hhandlers]
    exact hj.order
  · rw [hhandlers, hmade]
    exact hj.made
  · rw [hhandlers]
    exact hj.console
  · rw [hhandlers, hlevel]
    exact hj.level

theorem IsSound.withLevel (hj : j.IsSound) {level : Level} (hlevel : IsUsual level) :
    IsSound { j with level } :=
  ⟨hj.handlers, hj.order, hj.made, hj.console, fun _ => hlevel⟩

/-- A handler may be added if it is set, unless it is a second one for the console. -/
theorem IsSound.attach (hj : j.IsSound) {outlet : Outlet} {least level : Level}
    (hset : Handler.IsSet j.disk ⟨j.made, outlet, least⟩)
    (hconsole : outlet = .console → j.hasConsole = false) (hlevel : IsUsual level) :
    IsSound { j.attach outlet least with level } where
  handlers h hh := by
    rcases List.mem_append.mp hh with hold | hnew
    · exact hj.handlers h hold
    · obtain rfl := List.mem_singleton.mp hnew
      exact hset
  order := by
    refine List.pairwise_append.mpr ⟨hj.order, List.pairwise_singleton _ _, ?_⟩
    intro h hh other hother
    obtain rfl := List.mem_singleton.mp hother
    exact hj.made h hh
  made h hh := by
    rcases List.mem_append.mp hh with hold | hnew
    · exact Nat.lt_succ_of_lt (hj.made h hold)
    · obtain rfl := List.mem_singleton.mp hnew
      exact Nat.lt_succ_self j.made
  console := by
    have hold := hj.console
    simp only [Journal.attach, List.countP_append, List.countP_singleton]
    by_cases houtlet : outlet = .console
    · have hnone : (j.handlers.countP fun h => h.outlet = .console) = 0 := by
        simpa [hasConsole, List.countP_eq_zero] using hconsole houtlet
      rw [hnone]
      split
      · exact Nat.le_refl 1
      · exact Nat.zero_le 1
    · rw [if_neg (by simpa using houtlet)]
      exact hold
  level _ := hlevel

theorem isSound_take (hj : j.IsSound) (c : Call) : (j.take c).IsSound := by
  cases c with
  | quiet wanted =>
      cases wanted with
      | false => exact hj
      | true => exact hj.withLevel ⟨by decide, .inr rfl⟩
  | debug =>
      have hlevel : IsUsual .debug := ⟨by decide, .inl (by decide)⟩
      change j.debug.IsSound
      rw [debug]
      split
      · exact hj.withLevel hlevel
      · next hconsole =>
          exact (hj.withLevel hlevel).attach rfl (fun _ => by simpa using hconsole) hlevel
  | openFile directory =>
      obtain ⟨disk, hkeeps, ⟨fault, -, hafter⟩ | ⟨place, -, hpresent, hafter⟩⟩ :=
        take_openFile j directory
      · rw [hafter]
        exact hj.continues ⟨rfl, rfl, rfl, hkeeps.present⟩
      · rw [hafter]
        have hmade : IsSound { j with disk } := hj.continues ⟨rfl, rfl, rfl, hkeeps.present⟩
        exact hmade.attach ⟨rfl, hpresent⟩ nofun (isUsual_loosened _)
  | detach number? =>
      cases number? with
      | none => exact hj
      | some number =>
          refine ⟨?_, hj.order.filter _, ?_, ?_, ?_⟩
          · exact fun h hh => hj.handlers h (List.mem_filter.mp hh).1
          · exact fun h hh => hj.made h (List.mem_filter.mp hh).1
          · exact Nat.le_trans List.filter_sublist.countP_le hj.console
          · exact fun hsome => hj.level fun hnone => hsome (by simp [take, detach, hnone])
  | write s e => exact hj.continues (continues_write s e j)

theorem isSound_takeAll (hj : j.IsSound) (calls : List Call) : (j.takeAll calls).IsSound := by
  induction calls generalizing j with
  | nil => exact hj
  | cons c rest ih => exact ih (isSound_take hj c)

/-! ## The level -/

/-- Whether a call lets information through again: debugging is asked for, or a log is opened. -/
def Call.Loosens (j : Journal) : Call → Prop
  | .debug => True
  | .openFile directory => ∃ number, ((Journal.openFile directory).execute j).1 = .ok number
  | _ => False

/-- Whether quiet was asked for and no call after that let information through again. -/
def IsQuieted (j : Journal) (calls : List Call) : Prop :=
  ∃ earlier since, calls = earlier ++ .quiet true :: since ∧
    ∀ between c later, since = between ++ c :: later →
      ¬ c.Loosens (j.takeAll (earlier ++ .quiet true :: between))

theorem isQuieted_concat {calls : List Call} : j.IsQuieted (calls ++ [c]) ↔
    c = .quiet true ∨ (j.IsQuieted calls ∧ ¬ c.Loosens (j.takeAll calls)) := by
  constructor
  · rintro ⟨earlier, since, hcalls, hnone⟩
    rcases List.eq_nil_or_concat since with rfl | ⟨front, last, rfl⟩
    · exact .inl (List.append_singleton_inj.mp hcalls).2
    · rw [List.concat_eq_append] at hcalls hnone
      rw [← List.cons_append, ← List.append_assoc] at hcalls
      obtain ⟨rfl, rfl⟩ := List.append_singleton_inj.mp hcalls
      refine .inr ⟨⟨earlier, front, rfl, ?_⟩, hnone front c [] rfl⟩
      rintro between other later rfl
      exact hnone between other (later ++ [c]) (by simp)
  · rintro (rfl | ⟨⟨earlier, since, rfl, hnone⟩, hlast⟩)
    · exact ⟨calls, [], rfl, by simp⟩
    · refine ⟨earlier, since ++ [c], by simp, ?_⟩
      intro between other later hsince
      rcases List.eq_nil_or_concat later with rfl | ⟨front, last, rfl⟩
      · obtain ⟨rfl, rfl⟩ := List.append_singleton_inj.mp hsince
        exact hlast
      · rw [List.concat_eq_append, ← List.cons_append, ← List.append_assoc] at hsince
        obtain ⟨rfl, -⟩ := List.append_singleton_inj.mp hsince
        exact hnone between other front rfl

/-- Only errors are let through after a call exactly if it asks for quiet, or if it was so before
and the call does not let information through. -/
theorem level_take_eq_error_iff : (j.take c).level = .error ↔
    c = .quiet true ∨ (j.level = .error ∧ ¬ c.Loosens j) := by
  cases c with
  | quiet wanted =>
      cases wanted with
      | false => simp [take, Call.Loosens]
      | true => simp [take, quiet]
  | debug =>
      have hlevel : (j.take .debug).level = .debug := by
        change j.debug.level = .debug
        rw [debug]
        split
        · rfl
        · rfl
      rw [hlevel]
      simp [Call.Loosens, Level.debug, Level.error]
  | openFile directory =>
      obtain ⟨disk, -, ⟨fault, hresult, hafter⟩ | ⟨place, hresult, -, hafter⟩⟩ :=
        take_openFile j directory
      · rw [hafter]
        simp [Call.Loosens, hresult]
      · rw [hafter]
        simp [Call.Loosens, hresult, loosened_ne_error]
  | detach number? =>
      cases number? with
      | none => simp [take, Call.Loosens]
      | some number => simp [take, detach, Call.Loosens]
  | write s e =>
      have hlevel : (j.take (.write s e)).level = j.level := (continues_write s e j).level
      rw [hlevel]
      simp [Call.Loosens]

theorem level_takeAll_eq_error_iff (hj : j.level ≠ .error) (calls : List Call) :
    (j.takeAll calls).level = .error ↔ j.IsQuieted calls := by
  induction calls using List.reverseRecOn with
  | nil =>
      refine iff_of_false hj ?_
      rintro ⟨earlier, since, hcalls, -⟩
      simp at hcalls
  | append_singleton calls c ih =>
      rw [takeAll_concat, level_take_eq_error_iff, isQuieted_concat, ih]

end Journal

end LinkShelf
