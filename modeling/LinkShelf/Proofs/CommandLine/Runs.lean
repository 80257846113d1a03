import LinkShelf.Proofs.Bookmark.Decoding
import LinkShelf.Proofs.CommandLine.Upkeep

/-!
Runs of the program one after the other, on one file system. Each has surroundings and arguments of
its own, starts where it likes, and has a device that refuses what it likes.
-/

namespace LinkShelf

/-- A run: what it sees of the world, where its relative paths start, what the device refuses while
it lasts, and what it is asked. -/
structure Run where
  surroundings : Surroundings
  workingDirectory : Location
  refusal? : FileStep → Option String
  args : List String

namespace Run

/-- The moment of a run, as the program keeps moments. -/
def now (run : Run) : Instant := run.surroundings.now.wholeSecond

/-- A disk as a run finds it. -/
def disk (run : Run) (d : Disk) : Disk :=
  { d with workingDirectory := run.workingDirectory, refusal? := run.refusal? }

/-- The disk that a run leaves. -/
def after (run : Run) (d : Disk) : Disk :=
  (Session.run run.surroundings (run.disk d) run.args).disk

/-- Whether a run is understood to make a request. -/
def Asks (run : Run) (d : Disk) (request : Request) : Prop :=
  ∃ i, Invocation.read (run.disk d) (run.surroundings.environment.path? "TAGMARKS_STORE_PATH")
    run.args = .ok i ∧ i.request = request

end Run

/-- Whether runs with only such requests as are allowed lead from a disk to another one. -/
inductive RunsLead (IsAllowed : Request → Prop) : Disk → List Run → Disk → Prop
  | nil (d : Disk) : RunsLead IsAllowed d [] d
  | cons {d last : Disk} {run : Run} {rest : List Run} :
      (∀ request, run.Asks d request → IsAllowed request) →
      RunsLead IsAllowed (run.after d) rest last → RunsLead IsAllowed d (run :: rest) last

/-- Whether a request imports a file. -/
def Request.IsImport (request : Request) : Prop := ∃ file, request = .importFile file

namespace Run

open RecordDirectory

variable {Q : String → ByteArray → Prop} {E W : Bookmark → Prop} {l : Location} {d : Disk}
  {run : Run}

/-- The record files at a location stay as described in a run that writes only bookmarks of a kind,
and imports none of another kind. -/
theorem after_holdsOnly (hQ : Discipline Q E W) (hregime : Command.Regime E W run.now)
    (h : HoldsOnly Q l d)
    (himported : ∀ request, run.Asks d request → request.IsImport →
      ∀ {record b}, Bookmark.ofRecord record = .ok b → Store.IsStorable E W run.now b) :
    HoldsOnly Q l (run.after d) := by
  have hfound : HoldsOnly Q l (run.disk d) := h
  refine Session.run_holdsOnly hQ hregime hfound run.args ?_
  intro i file hread hfile
  exact himported _ ⟨i, hread, rfl⟩ ⟨file, hfile⟩

theorem eq_of_asks {request other : Request}
    (hread : (Invocation.read (run.disk d) (run.surroundings.environment.path?
      "TAGMARKS_STORE_PATH") run.args).toOption.map (·.request) = some request)
    (hasks : run.Asks d other) : other = request := by
  obtain ⟨i, hi, rfl⟩ := hasks
  rw [hi] at hread
  exact Option.some.inj hread

end Run

/-! ## Bookmarks that are added -/

namespace Command

variable {url : String} {f : GivenFields} {b : Bookmark}

/-- A bookmark that is there keeps what is not given anew, but for the time of its last change. -/
theorem bookmarkFor_some {other : Bookmark} (h : bookmarkFor url f (some other) = .ok b) :
    ∃ title notes tags color,
      b = { other with title, notes, tags, color, modified := none } ∧
      (title = other.title ∨ ∃ s, title = .text s) ∧
      (notes = other.notes ∨ ∃ s, notes = .text s) ∧
      (tags = other.tags ∨ ∃ words, tags = .names (TagSet.ofList (tagNames words))) ∧
      (color = other.color ∨ ∃ v, Color.ofJson v = .ok color) := by
  obtain ⟨changes, hchanges, hb⟩ := bind_eq_ok.mp h
  -- Once it is read, a color that is given is like one that was there.
  obtain ⟨color, hcolor, hkept⟩ : ∃ color,
      (color = other.color ∨ ∃ v, Color.ofJson v = .ok color) ∧
        changesFor { f with color := none } { other with color } = .ok changes := by
    rw [changesFor] at hchanges
    cases hgiven : f.color with
    | none =>
        rw [hgiven] at hchanges
        exact ⟨_, .inl rfl, hchanges⟩
    | some c =>
        rw [hgiven] at hchanges
        obtain ⟨color, hcolor, hchanges⟩ := bind_eq_ok.mp hchanges
        exact ⟨color, .inr ⟨_, hcolor⟩, hchanges⟩
  cases hkept
  have hfields := Bookmark.checked_eq_ok hb
  simp only [List.foldl_cons, List.foldl_nil, Bookmark.change] at hfields
  refine ⟨_, _, _, color, hfields, ?_, ?_, ?_, hcolor⟩
  · cases f.title with
    | none => exact .inl rfl
    | some s => exact .inr ⟨s, rfl⟩
  · cases f.notes with
    | none => exact .inl rfl
    | some s => exact .inr ⟨s, rfl⟩
  · split
    · exact .inl rfl
    · exact .inr ⟨f.tags, rfl⟩

/-- A new bookmark has no times and was never visited. -/
theorem bookmarkFor_none (h : bookmarkFor url f none = .ok b) :
    ∃ locator title notes set color v w, Tags.ofJson v = .ok set ∧ Color.ofJson w = .ok color ∧
      b = ⟨locator, .text title, .text notes, .null, .names set, color, none, none, none,
        .null⟩ := by
  obtain ⟨locator, set, color, -, hset, hcolor, -, hb⟩ := Bookmark.of_cases h
  exact ⟨locator, _, _, set, color, _, _, hset, hcolor, hb⟩

end Command

end LinkShelf
