import LinkShelf.Proofs.CommandLine.Import
import LinkShelf.Proofs.Query.LimitTerms
import LinkShelf.Proofs.Store.Opening

/-!
Limits on the command line. Main statement: a run that finds bookmarks with a limit above zero
prints what the query with that limit written after it gives; with a limit below zero it leaves out
as many bookmarks at the end, where the query is refused (`find_limited`).
-/

namespace LinkShelf

/-! ## Command lines -/

namespace OptionForm

variable {ι : Type} {forms : List (OptionForm ι)} {form : OptionForm ι} {mixed : Bool}
  {word value : String} {rest : List String}

theorem readWords_separator : readWords forms mixed ("--" :: rest) = .ok ⟨[], rest⟩ := by
  delta readWords
  show (if "--" = "--" then Except.ok (⟨[], rest⟩ : Words ι) else _) = _
  rw [if_pos rfl]

theorem readWords_of_first (hword : word ≠ "--") (hoption : isOption word = false) :
    readWords forms false (word :: rest) = .ok ⟨[], word :: rest⟩ := by
  delta readWords
  show (if word = "--" then _ else if isOption word = true then _ else
    if false = true then _ else Except.ok (⟨[], word :: rest⟩ : Words ι)) = _
  rw [if_neg hword, if_neg (by simp [hoption]), if_neg Bool.false_ne_true]

theorem readWords_of_waiting {found : Words ι} (hword : word ≠ "--")
    (hoption : isOption word = true)
    (hread : readWord forms word = .ok ⟨[], some form⟩)
    (hrest : readWords forms mixed rest = .ok found) :
    readWords forms mixed (word :: value :: rest) =
      .ok { found with options := ⟨form.meaning, value⟩ :: found.options } := by
  delta readWords at hrest ⊢
  show (if word = "--" then _ else if isOption word = true then readWord forms word >>= _ else _)
    = _
  rw [if_neg hword, if_pos hoption, hread]
  exact congrArg (fun given : Except UsageFault (Words ι) => do
    let found ← given
    return { found with options := ⟨form.meaning, value⟩ :: found.options }) hrest

end OptionForm

namespace Request

variable {d : Disk} {command : String} {args words : List String} {n : Int}

theorem isOversized_of_readFind (hread : readFind args = .ok (.find words (some n))) :
    Number.isOversized n = false := by
  obtain ⟨found, -, hread⟩ := bind_eq_ok.mp hread
  split at hread
  · cases hread
  · split at hread
    · next hplain =>
        cases hread
        exact Number.isOversized_of_readPlain? hplain
    · cases hread

/-- A limit on the command line does not have too many digits. -/
theorem isOversized_of_read (hread : read d command args = .ok (.find words (some n))) :
    Number.isOversized n = false := by
  have hmap : ∀ {given : Except UsageFault String} {request : String → Request},
      (∀ word, request word ≠ .find words (some n)) →
      given.map request ≠ .ok (.find words (some n)) := by
    rintro (_ | word) request hrequest heq
    · cases heq
    · exact hrequest word (Except.ok.inj heq)
  unfold read at hread
  split at hread
  · obtain ⟨_, -, hread⟩ := bind_eq_ok.mp hread
    obtain ⟨_, -, hread⟩ := bind_eq_ok.mp hread
    cases hread
  · exact absurd hread (hmap nofun)
  · exact absurd hread (hmap nofun)
  · obtain ⟨_, -, hread⟩ := bind_eq_ok.mp hread
    split at hread <;> cases hread
  · exact absurd hread (hmap nofun)
  · exact isOversized_of_readFind hread
  · obtain ⟨_, -, hread⟩ := bind_eq_ok.mp hread
    split at hread <;> cases hread
  · obtain ⟨_, -, hread⟩ := bind_eq_ok.mp hread
    dsimp only at hread
    split at hread <;> cases hread
  · cases hread

/-- A limit that is written in base ten is read with the text after it. -/
theorem readFind_limit (text : String) (n : Int) :
    readFind ["--limit", String.ofList (Number.integerText n), "--", text] =
      if Number.isOversized n then
        .error (.notAnInteger "--limit" (String.ofList (Number.integerText n)))
      else .ok (.find [text] (some n)) := by
  have hwords : OptionForm.readWords findForms true
      ["--limit", String.ofList (Number.integerText n), "--", text] =
        .ok ⟨[⟨.limit, String.ofList (Number.integerText n)⟩], [text]⟩ :=
    OptionForm.readWords_of_waiting (by decide) (by decide) rfl OptionForm.readWords_separator
  rw [readFind, hwords, ok_bind]
  simp only [valuesOf, List.filter_cons, List.filter_nil, List.map_cons, decide_true, if_true,
    List.map_nil, List.getLast?_singleton, String.toList_ofList, Number.readPlain?_integerText]
  cases Number.isOversized n <;> rfl

end Request

namespace Invocation

variable {d : Disk} {store : Option Path} {args words : List String} {n : Int} {i : Invocation}

theorem isOversized_limit (hread : read d store args = .ok i)
    (hfind : i.request = .find words (some n)) : Number.isOversized n = false := by
  obtain ⟨found, -, hread⟩ := bind_eq_ok.mp hread
  dsimp only at hread
  split at hread
  · cases hread
    cases hfind
  · split at hread
    · cases hread
    · obtain ⟨request, hrequest, hread⟩ := bind_eq_ok.mp hread
      cases hread
      cases hfind
      exact Request.isOversized_of_read hrequest

theorem read_find (d : Disk) (store : Option Path) (args : List String) :
    read d store ("find" :: args) =
      (Request.readFind args).map fun request => ⟨false, false, store, request⟩ := by
  have hwords : OptionForm.readWords forms false ("find" :: args) = .ok ⟨[], "find" :: args⟩ :=
    OptionForm.readWords_of_first (by decide) (by decide)
  rw [read, hwords, ok_bind]
  simp only [Request.read]
  cases Request.readFind args <;> rfl

end Invocation

namespace Command

/-! ## What is printed -/

/-- The lines that are printed for some bookmarks, and the failure that ends them, if one does. -/
def printedLines : List Bookmark → String × Option Failure
  | [] => ("", none)
  | b :: rest =>
    match b.listLine with
    | .ok line =>
      (Text.withoutControls line ++ "\n" ++ (printedLines rest).1, (printedLines rest).2)
    | .error fault => ("", some fault)

/-- What is printed for some bookmarks, and the failure that ends it, if one does. -/
def listing (json : Bool) (bookmarks : List Bookmark) : String × Option Failure :=
  if json then
    match bookmarks.mapM Bookmark.toRecord with
    | .ok records =>
      if (Json.list records).hasOversized then ("", some .oversizedInteger)
      else (Text.withoutControls ((Json.list records).write .indented) ++ "\n", none)
    | .error fault => ("", some fault)
  else printedLines bookmarks

/-- How a command goes on after something was printed. -/
def printing (session : Session) : String × Option Failure → Except Stop Unit × Session
  | (text, none) => (.ok (), { session with printed := session.printed ++ text })
  | (text, some fault) =>
    (.error (.crash fault), { session with printed := session.printed ++ text })

variable {α β : Type} {s : Surroundings} {session : Session}

theorem printing_fault (session : Session) (fault : Failure) :
    printing session ("", some fault) = (.error (.crash fault), session) := by
  rw [printing, String.append_empty]

theorem forM_listLine_apply (bookmarks : List Bookmark) (session : Session) :
    (bookmarks.forM fun b => do say (← attempt b.listLine) : Command Unit) session =
      printing session (printedLines bookmarks) := by
  induction bookmarks generalizing session with
  | nil =>
      show (Except.ok (), session) = (.ok (), { session with printed := session.printed ++ "" })
      rw [String.append_empty]
  | cons b rest ih =>
      show ((attempt b.listLine >>= say) >>= fun _ => rest.forM fun b => do
        say (← attempt b.listLine)) session = _
      rw [printedLines]
      cases hline : b.listLine with
      | error fault =>
          exact (bind_apply_of_error (bind_apply_of_error rfl)).trans
            (printing_fault session fault).symm
      | ok line =>
          refine (bind_apply_of_ok (bind_apply_of_ok rfl)).trans ((ih _).trans ?_)
          obtain ⟨text, fault | fault⟩ := printedLines rest <;>
            simp only [printing, String.append_assoc]

theorem sayList_apply (json : Bool) (bookmarks : List Bookmark) (session : Session) :
    sayList json bookmarks session = printing session (listing json bookmarks) := by
  rw [sayList, listing]
  cases json with
  | false =>
      exact forM_listLine_apply bookmarks session
  | true =>
      rw [if_pos rfl, if_pos rfl]
      cases hrecords : bookmarks.mapM Bookmark.toRecord with
      | error fault =>
          exact (bind_apply_of_error rfl).trans (printing_fault session fault).symm
      | ok records =>
          refine (bind_apply_of_ok rfl).trans ?_
          cases hsize : (Json.list records).hasOversized with
          | true =>
              simp only [sayJson, hsize, if_true, printing_fault]
              rfl
          | false =>
              simp only [sayJson, hsize, Bool.false_eq_true, if_false, printing,
                ← String.append_assoc]
              rfl

/-! ## Commands that print nothing -/

/-- Whether a part of a run prints nothing. -/
def IsSilent (c : Command α) : Prop := ∀ session, (c session).2.printed = session.printed

theorem IsSilent.bind {c : Command α} {next : α → Command β} (hc : c.IsSilent)
    (hnext : ∀ a, (next a).IsSilent) : (c >>= next).IsSilent := by
  intro session
  have hfirst := hc session
  change (ExceptT.bindCont next (c session).1 (c session).2).2.printed = _
  cases (c session).1 with
  | ok a => exact (hnext a _).trans hfirst
  | error why => exact hfirst

theorem isSilent_refusing (foreseen : Failure → Bool) (result : Except Failure α) :
    (refusing foreseen result).IsSilent := by
  intro session
  cases result with
  | ok a => rfl
  | error fault =>
      rw [refusing]
      split <;> rfl

theorem isSilent_onDisk (op : Operation Disk α) : (onDisk s op).IsSilent := fun _ => rfl

theorem isSilent_onJournal (op : Operation Journal α) : (onJournal op).IsSilent := fun _ => rfl

theorem isSilent_openStore (given : Option Path) : (openStore s given).IsSilent := by
  refine (isSilent_onDisk _).bind fun _ => (isSilent_refusing _ _).bind fun config => ?_
  refine (isSilent_refusing _ _).bind fun path => ?_
  refine (isSilent_onDisk _).bind fun _ => (isSilent_refusing _ _).bind fun _ => ?_
  refine (isSilent_onJournal _).bind fun _ => (isSilent_refusing _ _).bind fun _ => ?_
  exact (isSilent_onDisk _).bind fun _ => isSilent_refusing _ _

/-! ## Finding -/

theorem limited_of_pos {n : Int} (hn : 0 < n) (items : List α) :
    limited n items = items.take n.toNat := by
  rw [limited, if_neg hn.ne', if_pos hn]

theorem limited_of_neg {n : Int} (hn : n < 0) (items : List α) :
    limited n items = items.take (items.length - n.natAbs) := by
  rw [limited, if_neg hn.ne, if_neg hn.not_gt]

theorem compile_apply {c : Config} {words : List String} {today : Date} {q : Query}
    (hwords : words ≠ []) (htoday : localDate s.zone s.now = .ok today)
    (hquery : Query.ofText .builtin ⟨today, s.now.localTimeMicros s.zone⟩
      (String.intercalate " " words) = .ok q) : compile s c words session = (.ok q, session) := by
  obtain ⟨first, rest, rfl⟩ := List.exists_cons_of_ne_nil hwords
  rw [compile, if_neg (by simp)]
  refine (bind_apply_of_ok rfl).trans ?_
  rw [htoday]
  refine (bind_apply_of_ok rfl).trans ?_
  rw [hquery]
  rfl

theorem find_apply {i : Invocation} {words : List String} {limit : Option Int} {config : Config}
    {q : Query} {store : RecordDirectory Bookmark Locator} {configured opened : Session}
    (hconfig : onDisk s (Config.loadOrCreate s none) session = (.ok (.ok config), configured))
    (hquery : compile s config words configured = (.ok q, configured))
    (hopened : openStore s i.store configured = (.ok store, opened)) :
    find s i words limit session =
      (attempt (q.run s.zone (Store.all store)) >>= fun results => do
        report s (q.matched results)
        sayList i.json (limited (limit.getD (limitNumber config.limit)) results)) opened :=
  (bind_apply_of_ok hconfig).trans ((bind_apply_of_ok rfl).trans
    ((bind_apply_of_ok hquery).trans (bind_apply_of_ok hopened)))

end Command

/-! ## Runs -/

/-- A run that finds bookmarks with a query and a limit: the configuration is read, the query
compiles, and the store is opened. -/
structure FindRun where
  surroundings : Surroundings
  disk : Disk
  args : List String
  invocation : Invocation
  words : List String
  limit : Int
  config : Config
  configured : Session
  today : Date
  query : Query
  store : RecordDirectory Bookmark Locator
  opened : Session
  isUnderstood : Invocation.read disk
    (surroundings.environment.path? "TAGMARKS_STORE_PATH") args = .ok invocation
  isFind : invocation.request = .find words (some limit)
  isQuery : words ≠ []
  isConfigured : Command.onDisk surroundings (Config.loadOrCreate surroundings none)
    (Session.start surroundings disk invocation) = (.ok (.ok config), configured)
  isToday : localDate surroundings.zone surroundings.now = .ok today
  isCompiled : Query.ofText .builtin
    ⟨today, surroundings.now.localTimeMicros surroundings.zone⟩ (String.intercalate " " words) =
      .ok query
  isOpened : Command.openStore surroundings invocation.store configured = (.ok store, opened)

namespace FindRun

def finished (run : FindRun) : Finished := Session.run run.surroundings run.disk run.args

def present (run : FindRun) : Present :=
  ⟨run.today, run.surroundings.now.localTimeMicros run.surroundings.zone⟩

/-- The text of the query. -/
def text (run : FindRun) : String := String.intercalate " " run.words

/-- What the query gives, without a limit. -/
def matched (run : FindRun) : Except Failure (List Bookmark) :=
  run.query.run run.surroundings.zone (Store.all run.store)

/-- What the query with the limit written after it gives. -/
def expected (run : FindRun) : Except Failure (List Bookmark) := do
  let q ← Query.ofText .builtin run.present (Query.limitedText run.text run.limit)
  q.run run.surroundings.zone (Store.all run.store)

/-- How a run ends that is to print what was found: with the listing of that, or with a failure
where nothing can be printed. -/
def EndsAs (run : FindRun) : Except Failure (List Bookmark) → Prop
  | .ok found =>
    let listing := Command.listing run.invocation.json found
    run.finished.printed = listing.1 ∧ run.finished.code = if listing.2.isSome then 1 else 0
  | .error _ => run.finished.printed = "" ∧ run.finished.code = 1

theorem printed_opened (run : FindRun) : run.opened.printed = "" := by
  have hconfigured := Command.isSilent_onDisk (s := run.surroundings)
    (Config.loadOrCreate run.surroundings none)
    (Session.start run.surroundings run.disk run.invocation)
  have hopened := Command.isSilent_openStore (s := run.surroundings) run.invocation.store
    run.configured
  rw [run.isConfigured] at hconfigured
  rw [run.isOpened] at hopened
  exact hopened.trans hconfigured

theorem request_apply (run : FindRun) :
    Command.ofInvocation run.surroundings run.invocation
        (Session.start run.surroundings run.disk run.invocation) =
      (Command.attempt run.matched >>= fun results => do
        Command.report run.surroundings (run.query.matched results)
        Command.sayList run.invocation.json (Command.limited run.limit results)) run.opened := by
  rw [Command.ofInvocation, run.isFind]
  exact Command.find_apply run.isConfigured
    (Command.compile_apply run.isQuery run.isToday run.isCompiled) run.isOpened

/-- The limit cuts off what was found without it. -/
theorem endsAs_limited (run : FindRun) :
    run.EndsAs (run.matched.map (Command.limited run.limit)) := by
  have hrequest := run.request_apply
  have hprinted := run.printed_opened
  cases hmatched : run.matched with
  | error fault =>
      rw [hmatched] at hrequest
      have hrun := hrequest.trans (Command.bind_apply_of_error rfl)
      rw [Except.map, EndsAs, finished, Session.run_eq run.isUnderstood]
      simp only [hrun]
      exact ⟨hprinted, rfl⟩
  | ok found =>
      rw [hmatched] at hrequest
      have hrun := hrequest.trans ((Command.bind_apply_of_ok rfl).trans
        ((Command.bind_apply_of_ok rfl).trans (Command.sayList_apply _ _ _)))
      rw [Except.map, EndsAs, finished, Session.run_eq run.isUnderstood]
      simp only [hrun]
      obtain ⟨text, fault | fault⟩ :=
        Command.listing run.invocation.json (Command.limited run.limit found)
      · exact ⟨by simp [Command.printing, Session.finish, hprinted], rfl⟩
      · exact ⟨by simp [Command.printing, Session.crash, Session.finish, hprinted], rfl⟩

theorem isOversized_limit (run : FindRun) : Number.isOversized run.limit = false :=
  Invocation.isOversized_limit run.isUnderstood run.isFind

theorem expected_of_pos (run : FindRun) (hlimit : 0 < run.limit) :
    run.expected = run.matched.map (Command.limited run.limit) := by
  have hquery : Query.ofText .builtin run.present run.text = .ok run.query := run.isCompiled
  rw [expected, Query.ofText_limited hquery, Query.compile_limitTerm, run.isOversized_limit,
    if_neg Bool.false_ne_true, if_neg hlimit.not_gt]
  refine (Query.run_limited _ _ _ _).trans ?_
  exact congrArg (Except.map · run.matched)
    (funext fun found => (Command.limited_of_pos hlimit found).symm)

theorem expected_of_neg (run : FindRun) (hlimit : run.limit < 0) :
    run.expected = .error (.query ⟨.negativeLimit "limit" (limitTerm run.limit).argument,
      some (limitTerm run.limit).text⟩) := by
  have hquery : Query.ofText .builtin run.present run.text = .ok run.query := run.isCompiled
  rw [expected, Query.ofText_limited hquery, Query.compile_limitTerm, run.isOversized_limit,
    if_neg Bool.false_ne_true, if_pos hlimit]
  rfl

/-- Whether nothing of an outcome is printed, but a failure. -/
def Fails (run : FindRun) : Except Failure (List Bookmark) → Prop
  | .ok found =>
    let listing := Command.listing run.invocation.json found
    listing.1 = "" ∧ listing.2.isSome = true
  | .error _ => True

theorem endsAs_error_iff {run : FindRun} {outcome : Except Failure (List Bookmark)}
    (hends : run.EndsAs outcome) (fault : Failure) :
    run.EndsAs (.error fault) ↔ run.Fails outcome := by
  cases outcome with
  | error other => exact iff_of_true hends trivial
  | ok found =>
      obtain ⟨hprinted, hcode⟩ := hends
      rw [EndsAs, Fails, hprinted, hcode]
      exact and_congr_right fun _ => by simp [Option.isSome_iff_ne_none]

/-- A limit of too many digits is refused after the query of the run. -/
theorem limitedText_of_isOversized (run : FindRun) {n : Int} (hsize : Number.isOversized n = true) :
    Query.ofText .builtin run.present (Query.limitedText run.text n) =
      .error (.query ⟨.notANumber "limit" (limitTerm n).argument, some (limitTerm n).text⟩) := by
  have hquery : Query.ofText .builtin run.present run.text = .ok run.query := run.isCompiled
  rw [Query.ofText_limited hquery, Query.compile_limitTerm, if_pos hsize]
  rfl

end FindRun

/-- A run that finds bookmarks with a limit above zero prints what the query with the limit written
after it gives. Where the limit is below zero that query is refused, but the run prints what was
found without as many bookmarks at the end; it fails then only where nothing can be printed. With
any limit its query can be asked for, unless the limit has too many digits; then the query with the
limit is refused too. -/
theorem find_limited (run : FindRun) :
    (0 < run.limit → run.EndsAs run.expected) ∧
    (run.limit < 0 →
      let remaining := run.matched.map fun found =>
        found.take (found.length - run.limit.natAbs)
      run.expected = .error (.query ⟨.negativeLimit "limit" (limitTerm run.limit).argument,
        some (limitTerm run.limit).text⟩) ∧
      run.EndsAs remaining ∧ (run.EndsAs run.expected ↔ run.Fails remaining)) ∧
    ∀ n : Int,
      let args := ["find", "--limit", String.ofList (Number.integerText n), "--", run.text]
      let store := run.surroundings.environment.path? "TAGMARKS_STORE_PATH"
      (Number.isOversized n = false → Invocation.read run.disk store args =
        .ok ⟨false, false, store, .find [run.text] (some n)⟩) ∧
      (Number.isOversized n = true →
        (Session.run run.surroundings run.disk args).code = 2 ∧
        (Session.run run.surroundings run.disk args).printed = "" ∧
        Query.ofText .builtin run.present (Query.limitedText run.text n) =
          .error (.query ⟨.notANumber "limit" (limitTerm n).argument,
            some (limitTerm n).text⟩)) := by
  refine ⟨?_, ?_, ?_⟩
  · intro hlimit
    rw [run.expected_of_pos hlimit]
    exact run.endsAs_limited
  · intro hlimit remaining
    have hremaining : remaining = run.matched.map (Command.limited run.limit) :=
      congrArg (Except.map · run.matched)
        (funext fun found => (Command.limited_of_neg hlimit found).symm)
    have hends : run.EndsAs remaining := hremaining ▸ run.endsAs_limited
    refine ⟨run.expected_of_neg hlimit, hends, ?_⟩
    rw [run.expected_of_neg hlimit]
    exact FindRun.endsAs_error_iff hends _
  · intro n args store
    have hread : Invocation.read run.disk store args = _ := Invocation.read_find _ store _
    rw [Request.readFind_limit] at hread
    constructor
    · intro hsize
      rw [hread, if_neg (by simp [hsize])]
      rfl
    · intro hsize
      rw [if_pos hsize] at hread
      refine ⟨?_, ?_, run.limitedText_of_isOversized hsize⟩
      · rw [Session.run, hread]
        rfl
      · rw [Session.run, hread]
        rfl

/-! The only page is printed where the limit is one, and left out where it is minus one. -/

open Store

def onePageShelf : Disk :=
  shelf [("a.json", "\x7b\"url\": \"a.org\", \"created\": \"2020-01-01\", " ++
    "\"modified\": \"2020-01-01\"\x7d")]

def findingArgs (n : Int) : List String :=
  ["--store", "shelf", "find", "by:url", "--limit=" ++ String.ofList (Number.integerText n)]

def finding (n : Int) : Invocation :=
  ⟨false, false, some (.ofText "shelf"), .find ["by:url"] (some n)⟩

/-- Whether the configuration is read, a query compiles, and the store is opened. -/
def reachesStore (s : Surroundings) (store : Option Path) (text : String) (start : Session) :
    Bool :=
  match Command.onDisk s (Config.loadOrCreate s none) start, localDate s.zone s.now with
  | (.ok (.ok _), configured), .ok today =>
    match Query.ofText .builtin ⟨today, s.now.localTimeMicros s.zone⟩ text,
      Command.openStore s store configured with
    | .ok _, (.ok _, _) => true
    | _, _ => false
  | _, _ => false

theorem reachesStore_onePageShelf :
    reachesStore importer (finding 0).store "by:url"
      (Session.start importer onePageShelf (finding 0)) = true := by
  decide +kernel

theorem exists_findRun {n : Int}
    (hread : Invocation.read onePageShelf none (findingArgs n) = .ok (finding n)) :
    ∃ run : FindRun, run.text = "by:url" ∧ run.limit = n ∧
      run.finished = Session.run importer onePageShelf (findingArgs n) := by
  have hreaches := reachesStore_onePageShelf
  rw [reachesStore] at hreaches
  rcases hconfig : Command.onDisk importer (Config.loadOrCreate importer none)
    (Session.start importer onePageShelf (finding 0)) with ⟨(why | fault | config), configured⟩
  all_goals simp only [hconfig] at hreaches
  · cases hreaches
  · cases hreaches
  · cases htoday : localDate importer.zone importer.now with
    | error fault =>
        rw [htoday] at hreaches
        cases hreaches
    | ok today =>
        simp only [htoday] at hreaches
        cases hquery : Query.ofText .builtin ⟨today, importer.now.localTimeMicros importer.zone⟩
            "by:url" with
        | error fault =>
            rw [hquery] at hreaches
            cases hreaches
        | ok query =>
            rcases hopened : Command.openStore importer (finding 0).store configured with
              ⟨why | store, opened⟩
            all_goals rw [hquery, hopened] at hreaches
            · cases hreaches
            · exact ⟨⟨importer, onePageShelf, findingArgs n, finding n, ["by:url"], n, config,
                configured, today, query, store, opened, hread, rfl, by simp, hconfig, htoday,
                hquery, hopened⟩, rfl, rfl, rfl⟩

theorem find_limited_onePageShelf :
    ∃ run : FindRun, run.text = "by:url" ∧ run.limit = 1 ∧ run.EndsAs run.expected ∧
      run.finished.printed = "http://a.org/\n" := by
  obtain ⟨run, htext, hlimit, hfinished⟩ := exists_findRun (n := 1) (by decide +kernel)
  refine ⟨run, htext, hlimit, (find_limited run).1 (by rw [hlimit]; decide), ?_⟩
  rw [hfinished]
  decide +kernel

theorem find_drops_onePageShelf :
    ∃ run : FindRun, run.text = "by:url" ∧ run.limit = -1 ∧ ¬ run.EndsAs run.expected ∧
      run.finished.printed = "" ∧ run.finished.code = 0 := by
  obtain ⟨run, htext, hlimit, hfinished⟩ := exists_findRun (n := -1) (by decide +kernel)
  have hends : run.finished.printed = "" ∧ run.finished.code = 0 := by
    rw [hfinished]
    decide +kernel
  refine ⟨run, htext, hlimit, ?_, hends⟩
  rw [run.expected_of_neg (by rw [hlimit]; decide)]
  exact fun hfault => absurd (hfault.2.symm.trans hends.2) (by decide)

end LinkShelf
