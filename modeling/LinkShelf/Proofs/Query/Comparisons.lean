import LinkShelf.Proofs.Calendar.DayNumbers
import LinkShelf.Proofs.Query.Compilation
import LinkShelf.Proofs.Query.LocalDates
import LinkShelf.Proofs.Text.Blank

/-!
Terms that compare: `visit-count`, `created`, `last-visited` and `last-modified`, with an argument
that is a sign and an operand. Operands that name a number or a day do not start with a sign, so
that an argument is read in one way at most (`Reads.unique`). Main statement: which arguments are
accepted, and which bookmarks are kept (`compile_quantity`).
-/

namespace LinkShelf

open Text

/-! ## Signs and operands -/

/-- Whether an argument is a sign that stands for a comparison, and an operand after it. -/
structure IsReading (argument sign : String) (op : Comparison) (operand : String) : Prop where
  text : argument = sign ++ operand
  sign : Comparison.ofSign? sign = some op
  ne_empty : operand ≠ ""

/-- The characters that signs are made of. -/
def isSignChar (c : Char) : Bool := c == '=' || c == '<' || c == '>'

namespace Comparison

theorem ofSign?_signs : ∀ s ∈ signs, ofSign? (String.ofList s.1) = some s.2 := by decide

theorem dropLineEnd_eq_self {cs : List Char} (hcs : '\n' ∉ cs) : dropLineEnd cs = cs :=
  if_neg fun hlast => hcs (List.mem_of_getLast? hlast)

theorem split?_sound {a operand : List Char} {op : Comparison} (hline : '\n' ∉ a)
    (hsplit : split? a = some (op, operand)) :
    ∃ sign, ofSign? (String.ofList sign) = some op ∧ a = sign ++ operand ∧ operand ≠ [] := by
  rw [split?, dropLineEnd_eq_self hline] at hsplit
  split at hsplit
  · cases hsplit
  · next hline =>
      split at hsplit
      · next sign op' hfind =>
          cases hsplit
          have hsign := List.find?_some hfind
          rw [Bool.and_eq_true, List.isPrefixOf_iff_prefix, decide_eq_true_eq] at hsign
          obtain ⟨⟨rest, rfl⟩, hlength⟩ := hsign
          refine ⟨sign, ofSign?_signs _ (List.mem_of_find?_eq_some hfind), ?_, ?_⟩
          · rw [List.drop_left]
          · rw [List.drop_left]
            rintro rfl
            simp at hlength
      · cases hsplit
        refine ⟨[], rfl, rfl, ?_⟩
        rintro rfl
        simp at hline

theorem split?_complete {sign : String} {op : Comparison} {c : Char} {rest : List Char}
    (hsign : ofSign? sign = some op) (hc : isSignChar c = false)
    (hline : '\n' ∉ sign.toList ++ c :: rest) :
    split? (sign.toList ++ c :: rest) = some (op, c :: rest) := by
  have hnotLine : ((sign.toList ++ c :: rest).isEmpty ||
      (sign.toList ++ c :: rest).contains '\n') = false := by
    simpa using hline
  rw [split?, dropLineEnd_eq_self hline, hnotLine]
  simp only [isSignChar, Bool.or_eq_false_iff, beq_eq_false_iff_ne] at hc
  obtain ⟨⟨hequal, hless⟩, hgreater⟩ := hc
  unfold ofSign? at hsign
  -- the operand does not prolong the sign, so the longest sign that fits is the one that was put
  split at hsign <;> cases hsign <;>
    simp [signs, List.isPrefixOf, Ne.symm hequal, Ne.symm hless, Ne.symm hgreater]

end Comparison

/-! ## Operands that name something -/

theorem isBlank_of_isSignChar {c : Char} (hc : isSignChar c = true) : isBlank c = false := by
  simp only [isSignChar, Bool.or_eq_true, beq_iff_eq] at hc
  obtain (rfl | rfl) | rfl := hc <;> rfl

theorem Number.readInteger_of_isSignChar {c : Char} (hc : isSignChar c = true) (cs : List Char) :
    readInteger (strip (c :: cs)) = .error .notInteger := by
  obtain ⟨rest, hstrip⟩ := strip_cons (isBlank_of_isSignChar hc) cs
  rw [hstrip]
  simp only [isSignChar, Bool.or_eq_true, beq_iff_eq] at hc
  obtain (rfl | rfl) | rfl := hc <;> rfl

namespace DayText

variable {present : Present}

theorem separated?_of_isSignChar {c : Char} (hc : isSignChar c = true) (separator : Char)
    (cs : List Char) : separated? separator (c :: cs) = none := by
  apply separated?_eq_none
  rintro d ⟨⟩
  simp only [isSignChar, Bool.or_eq_true, beq_iff_eq] at hc
  obtain (rfl | rfl) | rfl := hc <;> decide

theorem readRelative_of_isSignChar (present : Present) {c : Char} (hc : isSignChar c = true)
    (s : String) {cs : List Char} (hs : s.toList = c :: cs) :
    ∃ text, readRelative present s = .error (.notRelative text) := by
  obtain ⟨rest, hstrip⟩ := strip_cons (isBlank_of_isSignChar hc) cs
  have hlower : ∃ more, lower (c :: rest) = c :: more := by
    simp only [isSignChar, Bool.or_eq_true, beq_iff_eq] at hc
    obtain (rfl | rfl) | rfl := hc <;> exact ⟨_, rfl⟩
  obtain ⟨more, hlower⟩ := hlower
  refine ⟨String.ofList (c :: more), ?_⟩
  rw [readRelative, hs, hstrip, hlower]
  simp only [isSignChar, Bool.or_eq_true, beq_iff_eq] at hc
  obtain (rfl | rfl) | rfl := hc <;> rfl

theorem read_of_isSignChar {c : Char} (hc : isSignChar c = true) {s : String} {cs : List Char}
    (hs : s.toList = c :: cs) : read present s = .error (.unreadable s) := by
  obtain ⟨rest, hstrip⟩ := strip_cons (isBlank_of_isSignChar hc) cs
  obtain ⟨text, hrelative⟩ := readRelative_of_isSignChar present hc s hs
  rw [read, readAbsolute, hs, hstrip, separated?_of_isSignChar hc, separated?_of_isSignChar hc,
    hrelative]
  rfl

end DayText

/-! ## What is compared -/

/-- The relation of two numbers that a comparison asks for. -/
def Comparison.Relates : Comparison → Int → Int → Prop
  | .equal, x, y => x = y
  | .less, x, y => x < y
  | .atMost, x, y => x ≤ y
  | .greater, x, y => y < x
  | .atLeast, x, y => y ≤ x

instance (op : Comparison) (x y : Int) : Decidable (op.Relates x y) :=
  match op with
  | .equal => inferInstanceAs (Decidable (x = y))
  | .less => inferInstanceAs (Decidable (x < y))
  | .atMost => inferInstanceAs (Decidable (x ≤ y))
  | .greater => inferInstanceAs (Decidable (y < x))
  | .atLeast => inferInstanceAs (Decidable (y ≤ x))

theorem Comparison.holds_compare (op : Comparison) (x y : Int) :
    op.holds (compare x y) = decide (op.Relates x y) := by
  rw [Bool.eq_iff_iff, decide_eq_true_eq]
  rcases Int.lt_trichotomy x y with h | rfl | h
  · rw [Int.compare_eq_lt.mpr h]
    cases op <;> simp [holds, Relates] <;> omega
  · rw [Int.compare_eq_eq.mpr rfl]
    cases op <;> simp [holds, Relates]
  · rw [Int.compare_eq_gt.mpr h]
    cases op <;> simp [holds, Relates] <;> omega

theorem Date.compare_eq (d e : Date) :
    compare d e = compare (d.dayNumber : Int) (e.dayNumber : Int) := by
  change compare d.dayNumber e.dayNumber = _
  rcases Nat.lt_trichotomy d.dayNumber e.dayNumber with h | h | h
  · rw [Nat.compare_eq_lt.mpr h, Int.compare_eq_lt.mpr (Int.ofNat_lt.mpr h)]
  · rw [Nat.compare_eq_eq.mpr h, Int.compare_eq_eq.mpr (Int.ofNat_inj.mpr h)]
  · rw [Nat.compare_eq_gt.mpr h, Int.compare_eq_gt.mpr (Int.ofNat_lt.mpr h)]

/-- The day of a bookmark in a time zone, if it has the moment that is asked for. -/
def DateField.localDate? (field : DateField) (zone : Zone) (b : Bookmark) : Option Date :=
  (field.of b).bind fun t => t.localDate? zone

theorem Filter.holds_day_eq {zone : Zone} {b : Bookmark} {field : DateField}
    (hdates : ∀ t, field.of b = some t → t.HasLocalDate zone) (op : Comparison) (date : Date) :
    (day field op date).holds zone b = .ok ((field.localDate? zone b).any fun d =>
      op.Relates d.dayNumber date.dayNumber) := by
  rw [holds, DateField.localDate?]
  cases hmoment : field.of b with
  | none => rfl
  | some t =>
      obtain ⟨d, hd⟩ :=
        Option.isSome_iff_exists.mp (Instant.localDate?_isSome_iff.mpr (hdates t hmoment))
      simp only [localDate, hd, ok_bind, Option.bind_some, Option.any_some, Date.compare_eq,
        Comparison.holds_compare]
      rfl

/-- What a term compares with its operand. -/
inductive Quantity where
  | visits
  | day (field : DateField)
  deriving DecidableEq, Repr

namespace Quantity

/-- The actions that compare it. -/
def actions : Quantity → List String
  | .visits => ["visit-count"]
  | .day .created => ["created"]
  | .day .lastVisited => ["last-visited", "visited"]
  | .day .modified => ["last-modified", "modified"]

/-- The test of a comparison with what an operand names, if it names a number or a day. -/
def test? (present : Present) (op : Comparison) (operand : String) : Quantity → Option Filter
  | .visits => (Number.readInteger (strip operand.toList)).toOption.map (Filter.visits op)
  | .day field => (DayText.read present operand).toOption.map (Filter.day field op)

/-- The number that an operand names: an integer, or the number of a day. -/
def read? (present : Present) (operand : String) : Quantity → Option Int
  | .visits => (Number.readInteger (strip operand.toList)).toOption
  | .day _ => (DayText.read present operand).toOption.map fun d => (d.dayNumber : Int)

/-- The number that a bookmark has: its visits, or the number of the local day of a moment. -/
def of? (zone : Zone) (b : Bookmark) : Quantity → Option Int
  | .visits =>
    match b.visitCount with
    | .int n => some n
    | _ => none
  | .day field =>
    (field.of b).bind fun t => (t.localDate? zone).map fun d => (d.dayNumber : Int)

/-- Whether an argument is a sign and an operand that names a number. -/
structure Reads (q : Quantity) (present : Present) (argument sign : String) (op : Comparison)
    (operand : String) (n : Int) : Prop where
  reading : IsReading argument sign op operand
  value : q.read? present operand = some n

variable {q : Quantity} {present : Present} {zone : Zone} {op : Comparison} {b : Bookmark}
variable {bookmarks : List Bookmark} {name a operand : String} {n : Int}

/-- The action of a term that compares. -/
def action : Quantity → Action
  | .visits => Action.visitCount
  | .day field => Action.day field

theorem compile_eq (haction : name ∈ q.actions) :
    Registry.builtin.compile present ⟨name, a⟩ = q.action present ⟨name, a⟩ := by
  cases q with
  | visits =>
      obtain rfl := List.mem_singleton.mp haction
      rfl
  | day field =>
      cases field with
      | created =>
          obtain rfl := List.mem_singleton.mp haction
          rfl
      | lastVisited => obtain rfl | rfl := List.mem_pair.mp haction <;> rfl
      | modified => obtain rfl | rfl := List.mem_pair.mp haction <;> rfl

/-- The stage of a term that compares is the test of its comparison with its operand. -/
theorem action_eq_ok_iff {t : Term} {stage : Stage} :
    q.action present t = .ok stage ↔ ∃ op operand test,
      Comparison.split? t.argument.toList = some (op, operand) ∧
        q.test? present op (String.ofList operand) = some test ∧ stage = .keep test := by
  cases hsplit : Comparison.split? t.argument.toList with
  | none =>
      have hrefused : Action.comparisonOf t =
          Action.refuse t (.badArgument t.action t.argument) := by
        rw [Action.comparisonOf, hsplit]
      cases q <;> simp [action, Action.visitCount, Action.day, hrefused, Action.refuse]
  | some parts =>
      obtain ⟨op, operand⟩ := parts
      have hparts : Action.comparisonOf t = .ok (op, String.ofList operand) := by
        rw [Action.comparisonOf, hsplit]
      have hsame : (∃ op' operand' test, some (op, operand) = some (op', operand') ∧
          q.test? present op' (String.ofList operand') = some test ∧ stage = .keep test) ↔
            ∃ test, q.test? present op (String.ofList operand) = some test ∧
              stage = .keep test := by
        constructor
        · rintro ⟨op', operand', test, ⟨⟩, htest⟩
          exact ⟨test, htest⟩
        · rintro ⟨test, htest⟩
          exact ⟨op, operand, test, rfl, htest⟩
      rw [hsame]
      cases q with
      | visits =>
          simp only [action, Action.visitCount, hparts, ok_bind, Action.integerOf, test?]
          cases Number.readInteger (strip (String.ofList operand).toList) <;>
            simp [Except.toOption, Action.refuse, pure, Except.pure, eq_comm]
      | day field =>
          simp only [action, Action.day, hparts, ok_bind, test?]
          cases hread : DayText.read present (String.ofList operand) with
          | ok d => simp [Except.toOption, pure, Except.pure, eq_comm]
          | error fault => cases fault <;> simp [Except.toOption, Action.refuse]

/-! ## Arguments -/

theorem isSignChar_of_read? {c : Char} {cs : List Char} (hs : operand.toList = c :: cs)
    (hread : q.read? present operand = some n) : isSignChar c = false := by
  rw [← Bool.not_eq_true]
  intro hc
  cases q with
  | visits =>
      rw [read?, hs, Number.readInteger_of_isSignChar hc] at hread
      cases hread
  | day field =>
      rw [read?, DayText.read_of_isSignChar hc hs] at hread
      cases hread

theorem exists_test (hread : q.read? present operand = some n) (op : Comparison) :
    ∃ test, q.test? present op operand = some test := by
  cases q with
  | visits => exact ⟨_, congrArg (Option.map _) hread⟩
  | day field =>
      obtain ⟨d, hd, -⟩ := Option.map_eq_some_iff.mp hread
      exact ⟨_, congrArg (Option.map _) hd⟩

theorem Reads.split?_eq {sign : String} (h : q.Reads present a sign op operand n)
    (hline : '\n' ∉ a.toList) : Comparison.split? a.toList = some (op, operand.toList) := by
  obtain ⟨⟨htext, hsign, hne⟩, hread⟩ := h
  obtain ⟨c, cs, hs⟩ := List.exists_cons_of_ne_nil (mt String.toList_eq_nil_iff.mp hne)
  rw [htext, String.toList_append, hs] at hline ⊢
  exact Comparison.split?_complete hsign (isSignChar_of_read? hs hread) hline

/-- An argument is a sign and an operand that names a number in one way at most. -/
theorem Reads.unique {sign sign' operand' : String} {op' : Comparison} {n' : Int}
    (h : q.Reads present a sign op operand n) (h' : q.Reads present a sign' op' operand' n')
    (hline : '\n' ∉ a.toList) : sign = sign' ∧ operand = operand' := by
  have hsame := (h.split?_eq hline).symm.trans (h'.split?_eq hline)
  have hoperand : operand = operand' :=
    String.toList_inj.mp (congrArg Prod.snd (Option.some.inj hsame))
  subst hoperand
  refine ⟨?_, rfl⟩
  have htext := h.reading.text.symm.trans h'.reading.text
  rw [← String.toList_inj, String.toList_append, String.toList_append] at htext
  exact String.toList_inj.mp (List.append_cancel_right htext)

theorem exists_reads (hline : '\n' ∉ a.toList) {operand : List Char} {test : Filter}
    (hsplit : Comparison.split? a.toList = some (op, operand))
    (htest : q.test? present op (String.ofList operand) = some test) :
    ∃ sign n, q.Reads present a sign op (String.ofList operand) n := by
  obtain ⟨sign, hsign, htext, hne⟩ := Comparison.split?_sound hline hsplit
  have hread : ∃ n, q.read? present (String.ofList operand) = some n := by
    cases q with
    | visits =>
        obtain ⟨n, hn, -⟩ := Option.map_eq_some_iff.mp htest
        exact ⟨n, hn⟩
    | day field =>
        obtain ⟨d, hd, -⟩ := Option.map_eq_some_iff.mp htest
        exact ⟨d.dayNumber, by rw [read?, hd]; rfl⟩
  obtain ⟨n, hn⟩ := hread
  refine ⟨String.ofList sign, n, ⟨?_, hsign, ?_⟩, hn⟩
  · rw [← String.toList_inj, htext]
    simp
  · simpa using hne

/-! ## Bookmarks -/

/-- Whether the moments that are compared fall on days of the calendar. -/
def FindsDates (q : Quantity) (zone : Zone) (bookmarks : List Bookmark) : Prop :=
  ∀ field, q = .day field → ∀ b ∈ bookmarks, ∀ t, field.of b = some t → t.HasLocalDate zone

/-- A bookmark is kept if the number that it has stands in the relation. -/
theorem holds_test (hread : q.read? present operand = some n) {test : Filter}
    (htest : q.test? present op operand = some test)
    (hcount : b.visitCount = .null ∨ ∃ m, b.visitCount = .int m) (hdates : q.FindsDates zone [b]) :
    test.holds zone b = .ok ((q.of? zone b).any fun x => op.Relates x n) := by
  cases q with
  | visits =>
      rw [test?, show (Number.readInteger (strip operand.toList)).toOption = some n from hread,
        Option.map_some, Option.some.injEq] at htest
      subst htest
      rw [Filter.holds, of?]
      obtain hnull | ⟨m, hm⟩ := hcount
      · rw [hnull]
        rfl
      · have hcompare : (DyadicValue.ofInt m).compare (DyadicValue.ofInt n) = compare m n := by
          simp [DyadicValue.compare, DyadicValue.ofInt]
        rw [hm, Filter.compareValues_of_numeric rfl, Option.any_some, ← Comparison.holds_compare,
          ← hcompare]
        rfl
  | day field =>
      obtain ⟨d, hd, rfl⟩ := Option.map_eq_some_iff.mp hread
      rw [test?, hd, Option.map_some, Option.some.injEq] at htest
      subst htest
      have hlocal : ∀ t, field.of b = some t → t.HasLocalDate zone :=
        hdates field rfl b (by simp)
      rw [Filter.holds_day_eq hlocal, of?, DateField.localDate?]
      cases field.of b with
      | none => rfl
      | some t => cases h : t.localDate? zone <;> simp [h]

theorem run_of_findsDates (hread : q.read? present operand = some n) {test : Filter}
    (htest : q.test? present op operand = some test)
    (hcounts : ∀ b ∈ bookmarks, b.visitCount = .null ∨ ∃ m, b.visitCount = .int m)
    (hdates : q.FindsDates zone bookmarks) :
    (Stage.keep test).run zone bookmarks =
      .ok (bookmarks.filter fun b => (q.of? zone b).any fun x => op.Relates x n) := by
  have hholds : ∀ b ∈ bookmarks, test.holds zone b =
      .ok ((q.of? zone b).any fun x => op.Relates x n) := by
    intro b hb
    apply holds_test hread htest (hcounts b hb)
    intro field hfield other hother
    rw [List.mem_singleton.mp hother]
    exact hdates field hfield b hb
  apply filterM_eq_ok_iff.mpr
  constructor
  · exact fun b hb => ⟨_, hholds b hb⟩
  · apply List.filter_congr
    intro b hb
    simp [hholds b hb, Except.toOption]

theorem run_of_not_findsDates {test : Filter} (htest : q.test? present op operand = some test)
    (hdates : ¬q.FindsDates zone bookmarks) :
    (Stage.keep test).run zone bookmarks = .error .noLocalDate := by
  cases q with
  | visits => exact absurd nofun hdates
  | day field =>
      obtain ⟨d, -, rfl⟩ := Option.map_eq_some_iff.mp htest
      obtain ⟨-, hall⟩ | ⟨hfault, -⟩ := Stage.run_day_cases zone bookmarks field op d
      · refine absurd ?_ hdates
        rintro other ⟨⟩
        exact hall
      · exact hfault

end Quantity

namespace Query

variable {present : Present}

open Quantity in
/-- A term that compares is accepted exactly if its argument is a sign and an operand that names a
number or a day, which it is in one way at most. Any other argument is refused with a fault of the
term. The stage of the term keeps the bookmarks whose visits, or the local days of whose moments,
stand in the relation, as long as all those moments fall on days of the calendar; otherwise it fails
for want of a date. -/
theorem compile_quantity (htoday : 0 < present.today.dayNumber) (q : Quantity) {name a : String}
    (hname : name ∈ q.actions) (hline : '\n' ∉ a.toList) :
    ((∃ stage, Registry.builtin.compile present ⟨name, a⟩ = .ok stage) ↔
      ∃ sign op operand n, q.Reads present a sign op operand n) ∧
    (∀ {sign op operand n sign' op' operand' n'}, q.Reads present a sign op operand n →
      q.Reads present a sign' op' operand' n' → sign = sign' ∧ operand = operand') ∧
    (∀ fault, Registry.builtin.compile present ⟨name, a⟩ = .error fault →
      ∃ cause, fault = .query ⟨cause, some (Term.text ⟨name, a⟩)⟩) ∧
    ∀ {stage sign op operand n}, Registry.builtin.compile present ⟨name, a⟩ = .ok stage →
      q.Reads present a sign op operand n → ∀ (zone : Zone) (bookmarks : List Bookmark),
        (∀ b ∈ bookmarks, b.visitCount = .null ∨ ∃ m, b.visitCount = .int m) →
        (q.FindsDates zone bookmarks → stage.run zone bookmarks =
          .ok (bookmarks.filter fun b => (q.of? zone b).any fun x => op.Relates x n)) ∧
        (¬q.FindsDates zone bookmarks → stage.run zone bookmarks = .error .noLocalDate) := by
  have hcompile : ∀ {stage}, Registry.builtin.compile present ⟨name, a⟩ = .ok stage ↔
      ∃ op operand test, Comparison.split? a.toList = some (op, operand) ∧
        q.test? present op (String.ofList operand) = some test ∧ stage = .keep test := by
    intro stage
    rw [compile_eq hname, action_eq_ok_iff]
  refine ⟨⟨?_, ?_⟩, fun h h' => h.unique h' hline, Registry.compile_failsAs htoday _, ?_⟩
  · rintro ⟨stage, hstage⟩
    obtain ⟨op, operand, test, hsplit, htest, -⟩ := hcompile.mp hstage
    obtain ⟨sign, n, hreads⟩ := exists_reads hline hsplit htest
    exact ⟨sign, op, _, n, hreads⟩
  · rintro ⟨sign, op, operand, n, hreads⟩
    obtain ⟨test, htest⟩ := exists_test hreads.value op
    refine ⟨.keep test, hcompile.mpr ⟨op, operand.toList, test, hreads.split?_eq hline, ?_, rfl⟩⟩
    rwa [String.ofList_toList]
  · intro stage sign op operand n hstage hreads zone bookmarks hcounts
    obtain ⟨op', operand', test, hsplit, htest, rfl⟩ := hcompile.mp hstage
    cases hsplit.symm.trans (hreads.split?_eq hline)
    rw [String.ofList_toList] at htest
    exact ⟨run_of_findsDates hreads.value htest hcounts, run_of_not_findsDates htest⟩

def farEast : Zone := ⟨480⟩

theorem samplePages_findDates : (Quantity.day .lastVisited).FindsDates farEast samplePages := by
  have hmoments : ∀ t, t = morning ∨ t = evening → t.HasLocalDate farEast := by
    rintro t (rfl | rfl) <;> decide
  rintro field ⟨⟩ b hb t ht
  apply hmoments
  simp only [samplePages, List.mem_cons, List.not_mem_nil, or_false] at hb
  obtain rfl | rfl | rfl | rfl := hb
  · exact .inl (Option.some.inj ht).symm
  · exact .inr (Option.some.inj ht).symm
  · cases ht
  · exact .inr (Option.some.inj ht).symm

/-- Eight hours east of Universal Time the evening is on the next day. A sign the wrong way round is
refused. -/
theorem compile_quantity_samplePages :
    0 < samplePresent.today.dayNumber ∧
      (∃ stage, Registry.builtin.compile samplePresent ⟨"visited", "<= yesterday"⟩ = .ok stage ∧
        stage.run farEast samplePages = .ok (samplePages.take 1)) ∧
      ∃ cause, Registry.builtin.compile samplePresent ⟨"visit-count", "=>3"⟩ =
        .error (.query ⟨cause, some "visit-count:=>3"⟩) := by
  have htoday : 0 < samplePresent.today.dayNumber := by decide
  refine ⟨htoday, ?_, ?_⟩
  · have hreads : (Quantity.day .lastVisited).Reads samplePresent "<= yesterday" "<=" .atMost
        " yesterday" 737424 := ⟨⟨by decide, rfl, by decide⟩, by decide +kernel⟩
    obtain ⟨haccepted, -, -, hrun⟩ := compile_quantity htoday (.day .lastVisited)
      (show "visited" ∈ _ by decide) (show '\n' ∉ "<= yesterday".toList by decide)
    obtain ⟨stage, hstage⟩ := haccepted.mpr ⟨_, _, _, _, hreads⟩
    refine ⟨stage, hstage, ?_⟩
    have hcounts : ∀ b ∈ samplePages, b.visitCount = .null ∨ ∃ m, b.visitCount = .int m := by
      simp only [samplePages, List.forall_mem_cons]
      exact ⟨.inr ⟨3, rfl⟩, .inr ⟨9, rfl⟩, .inl rfl, .inr ⟨3, rfl⟩, by simp⟩
    rw [(hrun hstage hreads farEast samplePages hcounts).1 samplePages_findDates]
    rfl
  · obtain ⟨-, -, hrefused, -⟩ := compile_quantity htoday .visits
      (show "visit-count" ∈ _ by decide) (show '\n' ∉ "=>3".toList by decide)
    obtain ⟨cause, hcause⟩ := hrefused _ rfl
    exact ⟨cause, congrArg Except.error hcause⟩

def lastSecond : Instant := ⟨315537897599000000, by decide⟩

def lastSecondRecord : Json :=
  .object [("url", .text "http://b.org/"), ("title", .text "Lean"),
    ("lastVisited", .text "9999-12-31T23:59:59Z")]

/-- East of Universal Time the last second of the year 9999 is on a day after the calendar. -/
theorem run_fails_farEast : ∃ stage b,
    Registry.builtin.compile samplePresent ⟨"last-visited", "=2020-01-01"⟩ = .ok stage ∧
      Bookmark.ofRecord lastSecondRecord = .ok b ∧ b.visitCount = .null ∧
      stage.run farEast [b] = .error .noLocalDate := by
  have hmoment : Timestamp.ofJson (.text "9999-12-31T23:59:59Z") = .ok (some lastSecond) :=
    toOption_eq_some.mp (by decide +kernel)
  have hurl : Locator.ofJson (.text "http://b.org/") = .ok ⟨"http://b.org/"⟩ := rfl
  have hrecord : Bookmark.ofRecord lastSecondRecord = .ok
      { datedPage "http://b.org/" lastSecond with
        created := none
        lastVisited := some lastSecond } := by
    simp only [Bookmark.ofRecord, lastSecondRecord, List.lookup_cons, List.lookup_nil,
      String.reduceBEq, Option.getD_some, Option.getD_none, hmoment, ok_bind, Bookmark.of, hurl]
    rfl
  exact ⟨_, _, rfl, hrecord, rfl, rfl⟩

end Query

end LinkShelf
