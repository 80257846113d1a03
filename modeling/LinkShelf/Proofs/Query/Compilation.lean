import LinkShelf.Proofs.Calendar.Yesterday
import LinkShelf.Proofs.Query.Meaning

/-!
Which queries are refused, and how. A builtin action that refuses a term says so with a fault of
that term, as long as there is a day before today (`Registry.compile_failsAs`). Main statement: a
query is refused for the first of its terms that alone is refused, with the same fault, and a text
besides only for its quoting (`ofText_spec`).
-/

namespace LinkShelf

namespace Action

variable {present : Present} {t : Term} {α β : Type}

/-- Whether an outcome, if it is a fault, is one of a term. -/
def FailsAs (t : Term) (result : Except Failure α) : Prop :=
  ∀ fault, result = .error fault → ∃ cause, fault = .query ⟨cause, some t.text⟩

theorem failsAs_ok (a : α) : FailsAs t (.ok a : Except Failure α) := nofun

theorem failsAs_refuse (cause : QueryCause) : FailsAs t (refuse t cause : Except Failure α) := by
  rintro fault ⟨⟩
  exact ⟨cause, rfl⟩

theorem FailsAs.bind {x : Except Failure α} {f : α → Except Failure β} (hx : FailsAs t x)
    (hf : ∀ a, FailsAs t (f a)) : FailsAs t (x >>= f) := by
  cases x with
  | ok a => exact hf a
  | error fault =>
      intro other hother
      apply hx
      rw [← Except.error.inj hother]

theorem property_failsAs : FailsAs t (property present t) := by
  unfold property
  dsimp only
  split
  · apply failsAs_ok
  · split
    · apply failsAs_ok
    · apply failsAs_refuse

theorem tagged_failsAs : FailsAs t (tagged present t) := by
  unfold tagged
  split
  · apply failsAs_ok
  · apply failsAs_refuse

theorem site_failsAs : FailsAs t (site present t) := by
  unfold site
  split
  · apply failsAs_refuse
  · apply failsAs_ok

theorem comparisonOf_failsAs : FailsAs t (comparisonOf t) := by
  unfold comparisonOf
  split
  · apply failsAs_ok
  · apply failsAs_refuse

theorem integerOf_failsAs (text : String) : FailsAs t (integerOf t text) := by
  unfold integerOf
  split
  · apply failsAs_ok
  · apply failsAs_refuse

theorem visitCount_failsAs : FailsAs t (visitCount present t) := by
  apply comparisonOf_failsAs.bind
  rintro ⟨op, operand⟩
  apply (integerOf_failsAs operand).bind
  intro count
  apply failsAs_ok

theorem limit_failsAs : FailsAs t (limit present t) := by
  apply (integerOf_failsAs t.argument).bind
  intro n
  split
  · apply failsAs_refuse
  · apply failsAs_ok

theorem order_failsAs : FailsAs t (order present t) := by
  unfold order
  dsimp only
  split
  · apply failsAs_ok
  · apply failsAs_refuse

/-- Whether an argument compares with the day before today. -/
def ComparesYesterday (argument : String) : Prop :=
  ∃ op operand, Comparison.split? argument.toList = some (op, operand) ∧
    DayText.NamesYesterday (String.ofList operand)

theorem comparisonOf_eq_ok_iff {op : Comparison} {operand : String} :
    comparisonOf t = .ok (op, operand) ↔
      Comparison.split? t.argument.toList = some (op, operand.toList) := by
  rw [comparisonOf]
  split
  · next op' operand' hsplit =>
      rw [hsplit, Except.ok.injEq, Option.some.injEq, Prod.mk.injEq, Prod.mk.injEq,
        ← String.toList_inj, String.toList_ofList]
  · next hsplit =>
      rw [hsplit]
      exact iff_of_false nofun nofun

/-- A term is not refused, but fails, where the day before the first day is asked for. -/
theorem day_eq_noYesterday_iff {field : DateField} :
    day field present t = .error (.day .noYesterday) ↔
      present.today.dayNumber = 0 ∧ ComparesYesterday t.argument := by
  have hread : ∀ op operand, comparisonOf t = .ok (op, operand) →
      (day field present t = .error (.day .noYesterday) ↔
        DayText.read present operand = .error .noYesterday) := by
    intro op operand hparts
    rw [day, hparts, ok_bind]
    dsimp only
    split
    · next h => simp [h, pure, Except.pure]
    · next h => simp [h]
    · next fault hother h =>
        rw [h, Except.error.injEq]
        exact iff_of_false nofun hother
  constructor
  · intro h
    cases hparts : comparisonOf t with
    | ok parts =>
        obtain ⟨op, operand⟩ := parts
        obtain ⟨htoday, hyesterday⟩ :=
          DayText.read_eq_noYesterday_iff.mp ((hread op operand hparts).mp h)
        refine ⟨htoday, op, operand.toList, comparisonOf_eq_ok_iff.mp hparts, ?_⟩
        rwa [String.ofList_toList]
    | error fault =>
        obtain ⟨cause, rfl⟩ := comparisonOf_failsAs fault hparts
        rw [day, hparts] at h
        cases h
  · rintro ⟨htoday, op, operand, hsplit, hyesterday⟩
    have hparts : comparisonOf t = .ok (op, String.ofList operand) :=
      comparisonOf_eq_ok_iff.mpr (by rw [hsplit, String.toList_ofList])
    exact (hread op _ hparts).mpr (DayText.read_eq_noYesterday_iff.mpr ⟨htoday, hyesterday⟩)

theorem day_failsAs {field : DateField}
    (hday : ¬(present.today.dayNumber = 0 ∧ ComparesYesterday t.argument)) :
    FailsAs t (day field present t) := by
  have hfound : day field present t ≠ .error (.day .noYesterday) := fun h =>
    hday (day_eq_noYesterday_iff.mp h)
  intro fault hfault
  cases hparts : comparisonOf t with
  | error other =>
      rw [day, hparts] at hfault
      cases hfault
      exact comparisonOf_failsAs _ hparts
  | ok parts =>
      rw [day, hparts, ok_bind] at hfault hfound
      dsimp only at hfault hfound
      split at hfault
      · cases hfault
      · next h => exact absurd (by rw [h]) hfound
      · exact failsAs_refuse _ fault hfault

end Action

open Action in
/-- A term that is refused has a fault of its own. -/
theorem Registry.compile_failsAs {present : Present} (htoday : 0 < present.today.dayNumber)
    (t : Term) : FailsAs t (builtin.compile present t) := by
  have hday : ¬(present.today.dayNumber = 0 ∧ ComparesYesterday t.argument) := fun h =>
    absurd h.1 (Nat.ne_of_gt htoday)
  have hactions : ∀ e ∈ builtin.entries, FailsAs t (e.2 present t) := by
    simp only [builtin, List.forall_mem_cons]
    exact ⟨property_failsAs, tagged_failsAs, tagged_failsAs, site_failsAs, visitCount_failsAs,
      limit_failsAs, order_failsAs, order_failsAs, day_failsAs hday, day_failsAs hday,
      day_failsAs hday, day_failsAs hday, day_failsAs hday, by simp⟩
  rw [compile]
  split
  · next action haction =>
      obtain ⟨front, back, hentries, -⟩ := List.lookup_eq_some_iff.mp haction
      apply hactions (t.action, action)
      rw [hentries]
      simp
  · apply failsAs_refuse

/-- Whether a term alone makes a query. -/
def Term.Compiles (present : Present) (t : Term) : Prop :=
  ∃ q, Query.ofTerms .builtin present [t] = .ok q

namespace Query

variable {r : Registry} {present : Present} {terms : List Term} {t : Term} {fault : Failure}

theorem ofTerms_eq_error_iff :
    ofTerms r present terms = .error fault ↔ ∃ front t back, terms = front ++ t :: back ∧
      (∀ u ∈ front, ∃ stage, r.compile present u = .ok stage) ∧
      r.compile present t = .error fault := by
  rw [← mapM_eq_error_iff, ofTerms]
  cases terms.mapM fun t => r.compile present t <;> simp [pure, Except.pure]

theorem ofTerms_singleton_eq_error_iff :
    ofTerms r present [t] = .error fault ↔ r.compile present t = .error fault := by
  rw [ofTerms, List.mapM_cons]
  cases r.compile present t <;> simp [pure, Except.pure]

theorem compiles_iff : t.Compiles present ↔
    ∃ stage, Registry.builtin.compile present t = .ok stage := by
  simp [Term.Compiles, ofTerms_eq_ok_iff]

/-- Terms make a query exactly if each of them does alone. If one does not, the first such term
decides: the query is refused with the fault that this term alone is refused with, which names the
term. A text is refused besides only if its quoting is, and then for no term. -/
theorem ofText_spec (htoday : 0 < present.today.dayNumber) :
    (∀ terms, (∃ q, ofTerms .builtin present terms = .ok q) ↔
      ∀ t ∈ terms, t.Compiles present) ∧
    (∀ terms, (¬∀ t ∈ terms, t.Compiles present) → ∃ front t back cause,
      terms = front ++ t :: back ∧ (∀ u ∈ front, u.Compiles present) ∧
        ofTerms .builtin present [t] = .error (.query ⟨cause, some t.text⟩) ∧
        ofTerms .builtin present terms = .error (.query ⟨cause, some t.text⟩)) ∧
    ∀ text, (∃ found, Text.words text.toList = .ok found ∧ ofText .builtin present text =
        ofTerms .builtin present (found.map fun w => Term.ofWord (String.ofList w))) ∨
      ∃ fault, Text.words text.toList = .error fault ∧
        ofText .builtin present text = .error (.query ⟨.quoting text fault, none⟩) := by
  have hcompiles : ∀ terms, (∃ q, ofTerms .builtin present terms = .ok q) ↔
      ∀ t ∈ terms, t.Compiles present := by
    intro terms
    simp only [compiles_iff, ofTerms_eq_ok_iff, exists_and_left, exists_eq, and_true]
  refine ⟨hcompiles, ?_, ?_⟩
  · intro terms hrefused
    rw [← hcompiles] at hrefused
    cases hterms : ofTerms .builtin present terms with
    | ok q => exact absurd ⟨q, hterms⟩ hrefused
    | error fault =>
        obtain ⟨front, t, back, hsplit, hfront, ht⟩ := ofTerms_eq_error_iff.mp hterms
        obtain ⟨cause, rfl⟩ := Registry.compile_failsAs htoday t fault ht
        exact ⟨front, t, back, cause, hsplit, fun u hu => compiles_iff.mpr (hfront u hu),
          ofTerms_singleton_eq_error_iff.mpr ht, rfl⟩
  · intro text
    rw [ofText, Term.ofText]
    cases Text.words text.toList with
    | ok found =>
        left
        refine ⟨found, rfl, ?_⟩
        rfl
    | error fault =>
        right
        exact ⟨fault, rfl, rfl⟩

def secondDay : Present := ⟨(Date.of? 1 1 2).get (by decide), 0⟩

def refusedTerms : List Term :=
  [⟨"created", "yesterday"⟩, ⟨"visit-count", ">many"⟩, ⟨"limit", "-1"⟩]

def manyVisits : Failure :=
  .query ⟨.notANumber "visit-count" ">many", some "visit-count:>many"⟩

/-- The day before the second day of the calendar can be asked for, and the first of two terms that
are refused is the one that is reported. -/
theorem ofText_spec_secondDay :
    0 < secondDay.today.dayNumber ∧
      (∃ q, ofTerms .builtin secondDay [⟨"by", "url"⟩, ⟨"created", "yesterday"⟩] = .ok q) ∧
      (∃ front t back, refusedTerms = front ++ t :: back ∧
        (∀ u ∈ front, u.Compiles secondDay) ∧ t.text = "visit-count:>many" ∧
        ofTerms .builtin secondDay [t] = .error manyVisits ∧
        ofText .builtin secondDay "created:yesterday visit-count:>many limit:-1" =
          .error manyVisits) ∧
      ofText .builtin secondDay "by:url 'lean" =
        .error (.query ⟨.quoting "by:url 'lean" .openQuotation, none⟩) := by
  have htoday : 0 < secondDay.today.dayNumber := by decide
  obtain ⟨hcompiles, hfirst, htext⟩ := ofText_spec htoday
  have hrefused : ofTerms .builtin secondDay refusedTerms = .error manyVisits := rfl
  refine ⟨htoday, ?_, ?_, ?_⟩
  · apply (hcompiles _).mpr
    simp only [List.forall_mem_cons]
    exact ⟨⟨_, rfl⟩, ⟨_, rfl⟩, nofun⟩
  · obtain ⟨front, t, back, cause, hsplit, hfront, halone, hterms⟩ := hfirst refusedTerms <| by
      rw [← hcompiles, hrefused]
      nofun
    have hfault := Except.error.inj (hrefused.symm.trans hterms)
    rw [← hfault] at halone
    injection hfault with hfault
    injection hfault with hcause hterm
    refine ⟨front, t, back, hsplit, hfront, (Option.some.inj hterm).symm, halone, ?_⟩
    obtain ⟨found, hfound, hquery⟩ | ⟨fault, hfault, -⟩ :=
      htext "created:yesterday visit-count:>many limit:-1"
    · rw [hquery, ← hrefused]
      cases hfound
      rfl
    · cases hfault
  · obtain ⟨found, hfound, -⟩ | ⟨fault, hfault, hquery⟩ := htext "by:url 'lean"
    · cases hfound
    · cases hfault
      exact hquery

end Query

end LinkShelf
