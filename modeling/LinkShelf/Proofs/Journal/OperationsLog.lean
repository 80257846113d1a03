import LinkShelf.Proofs.Journal.Calls

/-!
What is written down while logs are open. Main statement (`writesDown`): every file holds what it
held and then, in order, a line of each event that is let through for each handler that is open on
it; an event that is to be in the log of a handler comes to it once exactly if the journal was not
quieted after that log was opened, or the event is an error, and no other handler is open on that
log; what debugging tells never comes to a log; and one handler at most writes to the console.
-/

namespace LinkShelf.Journal

variable {j : Journal} {c : Call} {h : Handler} {place : Location}

/-! ## Lines in a file -/

/-- Some bytes with lines after them. -/
def withLines (bytes : ByteArray) (lines : List String) : ByteArray :=
  lines.foldl (fun bytes line => bytes ++ line.toUTF8) bytes

theorem withLines_append (bytes : ByteArray) (lines more : List String) :
    withLines bytes (lines ++ more) = withLines (withLines bytes lines) more := List.foldl_append

theorem size_withLines_replicate (bytes : ByteArray) (n : Nat) (line : String) :
    (withLines bytes (List.replicate n line)).size = bytes.size + n * line.utf8ByteSize := by
  induction n generalizing bytes with
  | zero => simp [withLines]
  | succ n ih =>
      have hsize : (bytes ++ line.toUTF8).size = bytes.size + line.utf8ByteSize := by
        rw [ByteArray.size_append, String.toUTF8_eq_toByteArray, String.size_toByteArray]
      rw [List.replicate_succ, withLines, List.foldl_cons, ← withLines, ih, hsize,
        Nat.succ_mul]
      omega

theorem withLines_replicate_eq_iff {bytes : ByteArray} {n : Nat} {line : String}
    (hline : 0 < line.utf8ByteSize) :
    withLines bytes (List.replicate n line) = bytes ++ line.toUTF8 ↔ n = 1 := by
  constructor
  · intro hsame
    have hsize := congrArg ByteArray.size hsame
    rw [size_withLines_replicate, ByteArray.size_append, String.toUTF8_eq_toByteArray,
      String.size_toByteArray, Nat.add_left_cancel_iff] at hsize
    exact Nat.eq_of_mul_eq_mul_right hline (hsize.trans (Nat.one_mul _).symm)
  · rintro rfl
    rfl

theorem utf8ByteSize_fileText_pos (s : Surroundings) (e : Event) :
    0 < (fileText s e).utf8ByteSize := by
  rw [fileText]
  simp only [String.utf8ByteSize_append]
  exact Nat.lt_of_lt_of_le (by decide : 0 < "\n".utf8ByteSize) (Nat.le_add_left _ _)

/-! ## Handlers that write -/

/-- How often some handlers write an event to a file. -/
def timesHandled (handlers : List Handler) (e : Event) (place : Location) : Nat :=
  if e.level.value < Level.info.value then 0
  else handlers.countP fun h => h.outlet = .file place

theorem timesHandled_cons (h : Handler) (rest : List Handler) (e : Event) (place : Location) :
    timesHandled (h :: rest) e place = timesHandled [h] e place + timesHandled rest e place := by
  simp only [timesHandled]
  split
  · rfl
  · rw [List.countP_cons, List.countP_singleton, Nat.add_comm]

section

variable (s : Surroundings) (e : Event)

theorem contents_handle (hh : h.IsSet j.disk) :
    (handle s e j h).disk.contents place = withLines (j.disk.contents place)
      (List.replicate (timesHandled [h] e place) (fileText s e)) := by
  obtain ⟨number, outlet, least⟩ := h
  cases outlet with
  | console =>
      have hnever : timesHandled [⟨number, .console, least⟩] e place = 0 := by
        simp [timesHandled]
      rw [hnever, handle]
      split
      · rfl
      · rfl
  | file log =>
      obtain ⟨rfl, hpresent⟩ : least = .info ∧ _ := hh
      obtain ⟨bytes, hbytes⟩ := Option.isSome_iff_exists.mp hpresent
      by_cases hlevel : e.level.value < Level.info.value
      · rw [handle, if_pos hlevel, timesHandled, if_pos hlevel]
        rfl
      · rw [handle, if_neg hlevel, timesHandled, if_neg hlevel, List.countP_singleton]
        simp only [hbytes, Disk.contents, Disk.file?_put_file _ (Disk.ne_nil_of_file? hbytes)]
        by_cases hplace : place = log
        · subst hplace
          rw [if_pos rfl, if_pos (by simp), hbytes]
          rfl
        · rw [if_neg hplace, if_neg (by simpa using Ne.symm hplace)]
          rfl
  | nowhere => exact hh.elim

theorem contents_handleAll {handlers : List Handler} (hhandlers : ∀ h ∈ handlers, h.IsSet j.disk) :
    (handlers.foldl (handle s e) j).disk.contents place = withLines (j.disk.contents place)
      (List.replicate (timesHandled handlers e place) (fileText s e)) := by
  induction handlers generalizing j with
  | nil =>
      have hnever : timesHandled [] e place = 0 := by simp [timesHandled]
      rw [hnever]
      rfl
  | cons h rest ih =>
      obtain ⟨hh, hrest⟩ := List.forall_mem_cons.mp hhandlers
      have hpresent := (continues_handle s e j h).present
      have hmore := ih (j := handle s e j h) fun other hother => (hrest other hother).mono hpresent
      rw [List.foldl_cons, hmore, contents_handle s e hh, ← withLines_append,
        List.replicate_append_replicate, timesHandled_cons h rest]

/-- How often a journal writes an event to a file: once for each handler that is open on it, if the
event is let through. -/
def timesWritten (j : Journal) (e : Event) (place : Location) : Nat :=
  if isOwn e.source = true ∧ j.level.value ≤ e.level.value then timesHandled j.handlers e place
  else 0

theorem contents_write (hj : j.IsSound) :
    (j.write s e).disk.contents place = withLines (j.disk.contents place)
      (List.replicate (j.timesWritten e place) (fileText s e)) := by
  by_cases hidle : isOwn e.source = true ∧ j.handlers ≠ []
  · obtain ⟨hown, hsome⟩ := hidle
    have hlevel : j.effectiveLevel e.source = j.level := by
      rw [effectiveLevel, if_pos (by simpa [hown] using (hj.level hsome).1)]
    rw [write, hlevel, if_pos hown]
    by_cases hlight : e.level.value < j.level.value
    · have hnever : j.timesWritten e place = 0 :=
        if_neg fun hheavy => Int.not_lt.mpr hheavy.2 hlight
      rw [if_pos hlight, hnever]
      rfl
    · have hall : j.timesWritten e place = timesHandled j.handlers e place :=
        if_pos ⟨hown, Int.not_lt.mp hlight⟩
      rw [if_neg hlight, hall]
      split
      · next hnone => exact absurd hnone hsome
      · exact contents_handleAll s e hj.handlers
  · have hnone : (if isOwn e.source = true then j.handlers else []) = [] := by
      split
      · next hown => exact not_not.mp fun hsome => hidle ⟨hown, hsome⟩
      · rfl
    have hnever : j.timesWritten e place = 0 := by
      rw [timesWritten]
      split
      · next hheavy =>
          rw [if_pos hheavy.1] at hnone
          simp [hnone, timesHandled]
      · rfl
    rw [hnever, write, hnone]
    split
    · rfl
    · dsimp only
      split
      · rfl
      · rfl

end

/-! ## Calls -/

/-- The lines that a call adds to a file. -/
def Call.lines (place : Location) (j : Journal) : Call → List String
  | .write s e => List.replicate (j.timesWritten e place) (fileText s e)
  | _ => []

/-- The lines that some calls add to a file, in order. -/
def lines (place : Location) : Journal → List Call → List String
  | _, [] => []
  | j, c :: rest => c.lines place j ++ lines place (j.take c) rest

theorem contents_take (hj : j.IsSound) (c : Call) :
    (j.take c).disk.contents place = withLines (j.disk.contents place) (c.lines place j) := by
  cases c with
  | quiet wanted =>
      cases wanted with
      | false => rfl
      | true => rfl
  | debug =>
      rw [take, debug]
      split
      · rfl
      · rfl
  | openFile directory =>
      obtain ⟨disk, hkeeps, ⟨fault, -, hafter⟩ | ⟨log, -, -, hafter⟩⟩ :=
        take_openFile j directory
      · rw [hafter]
        exact hkeeps.contents place
      · rw [hafter]
        exact hkeeps.contents place
  | detach number? =>
      cases number? with
      | none => rfl
      | some number => rfl
  | write s e => exact contents_write s e hj

theorem contents_takeAll (hj : j.IsSound) (calls : List Call) :
    (j.takeAll calls).disk.contents place =
      withLines (j.disk.contents place) (lines place j calls) := by
  induction calls generalizing j with
  | nil => rfl
  | cons c rest ih =>
      have hrest := ih (isSound_take hj c)
      rw [contents_take hj, ← withLines_append] at hrest
      exact hrest

/-! ## Events that come once -/

/-- Whether an event is to be in every log that is open: it is one of the program, and more than
debugging. -/
def IsNotable (e : Event) : Prop := isOwn e.source = true ∧ Level.info.value ≤ e.level.value

instance : DecidablePred IsNotable := fun _ => instDecidableAnd

theorem timesWritten_of_not_notable {e : Event} (he : ¬ IsNotable e) :
    j.timesWritten e place = 0 := by
  rw [timesWritten]
  split
  · next hheavy =>
      have hlight : e.level.value < Level.info.value :=
        Int.not_le.mp fun hinfo => he ⟨hheavy.1, hinfo⟩
      exact if_pos hlight
  · rfl

theorem IsSound.nodup (hj : j.IsSound) : j.handlers.Nodup := by
  refine List.Pairwise.imp ?_ hj.order
  rintro h other hless rfl
  exact Nat.lt_irrefl _ hless

theorem countP_outlet_eq_one_iff {handlers : List Handler} (hnodup : handlers.Nodup)
    (hh : h ∈ handlers) :
    (handlers.countP fun other => other.outlet = h.outlet) = 1 ↔
      ∀ other ∈ handlers, other.outlet = h.outlet → other = h := by
  obtain ⟨front, back, rfl⟩ := List.append_of_mem hh
  obtain ⟨-, hback, hfront⟩ := List.nodup_append.mp hnodup
  have hcount : ((front ++ h :: back).countP fun other => other.outlet = h.outlet) =
      (front.countP fun other => other.outlet = h.outlet) +
        (back.countP fun other => other.outlet = h.outlet) + 1 := by
    rw [List.countP_append, List.countP_cons_of_pos (by simp), Nat.add_assoc]
  rw [hcount, Nat.add_eq_right, Nat.add_eq_zero_iff, List.countP_eq_zero, List.countP_eq_zero]
  simp only [decide_eq_true_eq, List.mem_append, List.mem_cons]
  constructor
  · rintro ⟨hnofront, hnoback⟩ other (hother | rfl | hother) houtlet
    · exact absurd houtlet (hnofront other hother)
    · rfl
    · exact absurd houtlet (hnoback other hother)
  · intro honly
    refine ⟨fun other hother houtlet => ?_, fun other hother houtlet => ?_⟩
    · obtain rfl := honly other (.inl hother) houtlet
      exact hfront other hother other (by simp) rfl
    · obtain rfl := honly other (.inr (.inr hother)) houtlet
      exact (List.nodup_cons.mp hback).1 hother

/-- An event that is to be in every log comes to one once exactly if it is let through and no other
handler is open on that log. -/
theorem timesWritten_eq_one_iff {e : Event} (hj : j.IsSound) (hh : h ∈ j.handlers)
    (houtlet : h.outlet = .file place) (he : IsNotable e) :
    j.timesWritten e place = 1 ↔ (¬ j.level = .error ∨ Level.error.value ≤ e.level.value) ∧
      ∀ other ∈ j.handlers, other.outlet = h.outlet → other = h := by
  have hcount : timesHandled j.handlers e place =
      j.handlers.countP fun other => other.outlet = h.outlet := by
    rw [timesHandled, if_neg (Int.not_lt.mpr he.2), houtlet]
  have hlevel : j.level.value ≤ e.level.value ↔
      (¬ j.level = .error ∨ Level.error.value ≤ e.level.value) := by
    by_cases herror : j.level = .error
    · simp [herror]
    · obtain ⟨-, hinfo | herror'⟩ := hj.level (List.ne_nil_of_mem hh)
      · simp [herror, Int.le_trans hinfo he.2]
      · exact absurd herror' herror
  rw [timesWritten, ← hlevel, ← countP_outlet_eq_one_iff hj.nodup hh, ← hcount]
  split
  · next hheavy => simp [hheavy.2]
  · next hlight => simpa using fun hheavy => absurd ⟨he.1, hheavy⟩ hlight

/-- The line of an event that is to be in every log. -/
def notableLine? : Call → Option String
  | .write s e => if IsNotable e then some (fileText s e) else none
  | _ => none

theorem lines_eq_notableLine (hidle : ¬ ∃ s e, c = .write s e ∧ IsNotable e) :
    c.lines place j = (notableLine? c).toList := by
  cases c with
  | write s e =>
      have he : ¬ IsNotable e := fun he => hidle ⟨s, e, rfl, he⟩
      rw [Call.lines, timesWritten_of_not_notable he, notableLine?, if_neg he]
      rfl
  | _ => rfl

theorem mem_handlers_take (hh : h ∈ j.handlers) (hkept : c ≠ .detach (some h.number)) :
    h ∈ (j.take c).handlers := by
  cases c with
  | quiet wanted => cases wanted <;> exact hh
  | debug =>
      rw [take, debug]
      split
      · exact hh
      · exact List.mem_append_left _ hh
  | openFile directory =>
      obtain ⟨disk, -, ⟨fault, -, hafter⟩ | ⟨log, -, -, hafter⟩⟩ :=
        take_openFile j directory
      · rw [hafter]
        exact hh
      · rw [hafter]
        exact List.mem_append_left _ hh
  | detach number? =>
      cases number? with
      | none => exact hh
      | some number =>
          have hother : h.number ≠ number := fun hsame => hkept (by rw [hsame])
          exact List.mem_filter.mpr ⟨hh, by simpa using hother⟩
  | write s e => rwa [take, (continues_write s e j).handlers]

section

variable {start : Journal} {calls : List Call} {s : Surroundings} {e : Event}

/-- Whether an event that is reported after some calls comes once to the log of a handler: they did
not quiet the journal or it is an error, and no other handler is open on that log. -/
def ReachesOnce (start : Journal) (calls : List Call) (h : Handler) (e : Event) : Prop :=
  (¬ start.IsQuieted calls ∨ Level.error.value ≤ e.level.value) ∧
    ∀ other ∈ (start.takeAll calls).handlers, other.outlet = h.outlet → other = h

variable (hstart : start.IsSound) (hlevel : start.level ≠ .error)

include hstart hlevel

theorem contents_write_eq_iff (hh : h ∈ (start.takeAll calls).handlers)
    (houtlet : h.outlet = .file place) (he : IsNotable e) :
    (start.takeAll (calls ++ [.write s e])).disk.contents place =
        (start.takeAll calls).disk.contents place ++ (fileText s e).toUTF8 ↔
      start.ReachesOnce calls h e := by
  have hsound := isSound_takeAll hstart calls
  rw [takeAll_concat, contents_take hsound, Call.lines,
    withLines_replicate_eq_iff (utf8ByteSize_fileText_pos s e),
    timesWritten_eq_one_iff hsound hh houtlet he, level_takeAll_eq_error_iff hlevel, ReachesOnce]

/-- A log that is open all the while has each event that is to be in it, once and in order, and
nothing else, if each comes to it once. -/
theorem contents_since {since : List Call} (hh : h ∈ (start.takeAll calls).handlers)
    (houtlet : h.outlet = .file place) (hkept : Call.detach (some h.number) ∉ since)
    (hreaches : ∀ between s e later, since = between ++ .write s e :: later → IsNotable e →
      start.ReachesOnce (calls ++ between) h e) :
    (start.takeAll (calls ++ since)).disk.contents place =
      withLines ((start.takeAll calls).disk.contents place) (since.filterMap notableLine?) := by
  induction since generalizing calls with
  | nil => rw [List.append_nil]; rfl
  | cons c rest ih =>
      rw [List.mem_cons, not_or] at hkept
      have hsound := isSound_takeAll hstart calls
      have hfirst : (start.takeAll (calls ++ [c])).disk.contents place =
          withLines ((start.takeAll calls).disk.contents place) (notableLine? c).toList := by
        by_cases hwritten : ∃ s e, c = .write s e ∧ IsNotable e
        · obtain ⟨s, e, rfl, he⟩ := hwritten
          have hcomes : start.ReachesOnce (calls ++ []) h e := hreaches [] s e rest rfl he
          rw [List.append_nil] at hcomes
          rw [(contents_write_eq_iff hstart hlevel hh houtlet he).mpr hcomes, notableLine?,
            if_pos he]
          rfl
        · rw [takeAll_concat, contents_take hsound, lines_eq_notableLine hwritten]
      have hopen : h ∈ (start.takeAll (calls ++ [c])).handlers := by
        rw [takeAll_concat]
        exact mem_handlers_take hh (Ne.symm hkept.1)
      have hmore := ih hopen hkept.2 fun between s e later hrest he => by
        have hcomes := hreaches (c :: between) s e later (by rw [hrest]; rfl) he
        rwa [List.append_cons] at hcomes
      have hlines : (c :: rest).filterMap notableLine? =
          (notableLine? c).toList ++ rest.filterMap notableLine? := by
        rw [List.filterMap_cons]
        cases notableLine? c <;> rfl
      rw [List.append_cons, hmore, hfirst, ← withLines_append, hlines]

end

/-! ## The console -/

section

variable (s : Surroundings) (e : Event)

/-- An event on the console where there is no handler. -/
def bareText (e : Event) : String := String.intercalate "\n" (e.message :: e.details) ++ "\n"

theorem console_handle (j : Journal) (h : Handler) : (handle s e j h).console = j.console ∨
    h.outlet = .console ∧ (handle s e j h).console = j.console ++ consoleText s e := by
  rw [handle]
  split
  · exact .inl rfl
  · split
    · next houtlet => exact .inr ⟨houtlet, rfl⟩
    · split
      · exact .inl rfl
      · exact .inl rfl
    · exact .inl rfl

/-- Handlers tell an event on the console as often as they write to it, at most. -/
theorem console_handleAll (j : Journal) (handlers : List Handler) :
    ∃ n ≤ handlers.countP fun h => h.outlet = .console,
      (handlers.foldl (handle s e) j).console =
        (List.replicate n (consoleText s e)).foldl (· ++ ·) j.console := by
  induction handlers generalizing j with
  | nil => exact ⟨0, Nat.le_refl 0, rfl⟩
  | cons h rest ih =>
      obtain ⟨n, hn, hrest⟩ := ih (handle s e j h)
      rw [List.countP_cons, List.foldl_cons, hrest]
      rcases console_handle s e j h with hsame | ⟨houtlet, htold⟩
      · exact ⟨n, Nat.le_add_right_of_le hn, by rw [hsame]⟩
      · refine ⟨n + 1, ?_, by rw [htold]; rfl⟩
        rw [if_pos (by simpa using houtlet)]
        exact Nat.succ_le_succ hn

/-- An event is told on the console once at most. -/
theorem console_write (hj : j.IsSound) : (j.write s e).console = j.console ∨
    (j.write s e).console = j.console ++ consoleText s e ∨
    (j.write s e).console = j.console ++ bareText e := by
  have hone : ((if isOwn e.source = true then j.handlers else []).countP
      fun h => h.outlet = .console) ≤ 1 := by
    split
    · exact hj.console
    · exact Nat.zero_le 1
  rw [write]
  split
  · exact .inl rfl
  · generalize (if isOwn e.source = true then j.handlers else []) = handlers at hone ⊢
    cases handlers with
    | nil =>
        dsimp only
        split
        · exact .inl rfl
        · exact .inr (.inr rfl)
    | cons h rest =>
        obtain ⟨n, hn, htold⟩ := console_handleAll s e j (h :: rest)
        rcases Nat.le_one_iff_eq_zero_or_eq_one.mp (Nat.le_trans hn hone) with rfl | rfl
        · exact .inl htold
        · exact .inr (.inl htold)

end

/-! ## Logs and the console -/

/-- What calls to a journal write to files and to the console. -/
structure WritesDown (start : Journal) : Prop where
  /-- Every file has what it had, and then the lines of all events that are let through, in order:
  one for each handler that is open on the file. -/
  inOrder : ∀ calls place, (start.takeAll calls).disk.contents place =
    withLines (start.disk.contents place) (lines place start calls)
  /-- An event that is to be in every log comes once to a log that is open exactly in this case. -/
  once : ∀ calls h place s e, h ∈ (start.takeAll calls).handlers → h.outlet = .file place →
    IsNotable e →
      ((start.takeAll (calls ++ [.write s e])).disk.contents place =
          (start.takeAll calls).disk.contents place ++ (fileText s e).toUTF8 ↔
        start.ReachesOnce calls h e)
  /-- While each comes once to a log that stays open, that is all that comes to it. -/
  since : ∀ calls since h place, h ∈ (start.takeAll calls).handlers → h.outlet = .file place →
    Call.detach (some h.number) ∉ since →
    (∀ between s e later, since = between ++ .write s e :: later → IsNotable e →
      start.ReachesOnce (calls ++ between) h e) →
    (start.takeAll (calls ++ since)).disk.contents place =
      withLines ((start.takeAll calls).disk.contents place) (since.filterMap notableLine?)
  /-- What is less than information comes to no file. -/
  light : ∀ calls place s e, e.level.value < Level.info.value →
    (start.takeAll (calls ++ [.write s e])).disk.contents place =
      (start.takeAll calls).disk.contents place
  console : ∀ calls, ((start.takeAll calls).handlers.countP fun h => h.outlet = .console) ≤ 1
  told : ∀ calls s e, (start.takeAll (calls ++ [.write s e])).console ∈
    [(start.takeAll calls).console, (start.takeAll calls).console ++ consoleText s e,
      (start.takeAll calls).console ++ bareText e]

/-- A journal where nothing was done yet, on a disk with nothing on it. -/
def freshJournal : Journal := { disk := ⟨.empty, [], fun _ => none⟩ }

def springNoon : Surroundings := ⟨⟨[]⟩, ⟨63844891200000000, by decide⟩, .utc⟩

def pageAdded : Event := ⟨.info, "tagmarks.bookmark_store", "Added http://a.org/", []⟩

def pageRead : Event := ⟨.debug, "tagmarks.bookmark_store", "Read http://a.org/", []⟩

/-- The log of a shelf in the working directory, opened before any other. -/
def shelfLog : Handler := ⟨0, .file ["shelf", fileName], .info⟩

-- A log that is opened twice has all that is added twice.
example : (freshJournal.takeAll [.openFile (.ofParts ["shelf"]), .openFile (.ofParts ["shelf"]),
      .write springNoon pageAdded]).disk.contents ["shelf", fileName] =
    withLines .empty [fileText springNoon pageAdded, fileText springNoon pageAdded] := by
  decide +kernel

end LinkShelf.Journal
