import LinkShelf.Proofs.Bookmark.Order
import LinkShelf.Query.Basic

/-!
What query terms ask for. Main statements: which stages the terms of the builtin actions are
compiled to (`compile_builtin`), and when a bookmark passes a test (`holds_eq_true_iff`,
`exists_holds`).
-/

namespace LinkShelf

namespace Term

/-- Whether a term puts bookmarks in order. -/
def IsOrdering (t : Term) : Prop := t.action = "by" ∨ t.action = "sort"

instance (t : Term) : Decidable t.IsOrdering := inferInstanceAs (Decidable (_ ∨ _))

end Term

namespace Stage

/-- Whether a stage keeps the bookmarks that pass one of the builtin tests. -/
def IsTest (stage : Stage) : Prop := ∃ test, stage = .keep test ∧ ∀ f, test ≠ .custom f

theorem isTest_keep {test : Filter} (htest : ∀ f, test ≠ .custom f) : (keep test).IsTest :=
  ⟨test, rfl, htest⟩

end Stage

namespace Action

variable {present : Present} {t : Term} {stage : Stage}

theorem isTest_property (h : property present t = .ok stage) : stage.IsTest := by
  rw [property] at h
  split at h
  · cases h
    exact Stage.isTest_keep nofun
  · split at h
    · cases h
      exact Stage.isTest_keep nofun
    · cases h

theorem isTest_tagged (h : tagged present t = .ok stage) : stage.IsTest := by
  rw [tagged] at h
  split at h
  · cases h
    exact Stage.isTest_keep nofun
  · cases h

theorem isTest_site (h : site present t = .ok stage) : stage.IsTest := by
  rw [site] at h
  split at h
  · cases h
  · cases h
    exact Stage.isTest_keep nofun

theorem isTest_visitCount (h : visitCount present t = .ok stage) : stage.IsTest := by
  obtain ⟨⟨op, operand⟩, -, h⟩ := bind_eq_ok.mp h
  obtain ⟨count, -, h⟩ := bind_eq_ok.mp h
  cases h
  exact Stage.isTest_keep nofun

theorem isTest_day {field : DateField} (h : day field present t = .ok stage) :
    stage.IsTest := by
  obtain ⟨⟨op, operand⟩, -, h⟩ := bind_eq_ok.mp h
  dsimp only at h
  split at h
  · cases h
    exact Stage.isTest_keep nofun
  · cases h
  · cases h

theorem exists_limit (h : limit present t = .ok stage) : ∃ n, stage = .limit n := by
  obtain ⟨n, -, h⟩ := bind_eq_ok.mp h
  split at h
  · cases h
  · cases h
    exact ⟨_, rfl⟩

theorem exists_order (h : order present t = .ok stage) :
    ∃ o, SortOrder.named? (String.ofList (Text.lower (Text.strip t.argument.toList))) = some o ∧
      stage = .sort o := by
  rw [order] at h
  split at h
  · next o ho =>
      cases h
      exact ⟨o, ho, rfl⟩
  · cases h

end Action

/-- The stage of a term, if it is not refused. -/
def Registry.stage? (r : Registry) (present : Present) (t : Term) : Option Stage :=
  (r.compile present t).toOption

theorem Registry.stage?_eq_some_iff {r : Registry} {present : Present} {t : Term} {stage : Stage} :
    r.stage? present t = some stage ↔ r.compile present t = .ok stage :=
  toOption_eq_some

/-- The stages of the builtin actions: `by` and `sort` put bookmarks in order, `limit` cuts the list
off, and all others test bookmarks one by one. -/
theorem Registry.compile_builtin {present : Present} {t : Term} {stage : Stage}
    (h : builtin.compile present t = .ok stage) :
    (t.IsOrdering ∧ Action.order present t = .ok stage) ∨
      (t.action = "limit" ∧ ∃ n, stage = .limit n) ∨ stage.IsTest := by
  rw [compile] at h
  split at h
  · next action haction =>
      obtain ⟨front, back, hentries, -⟩ := List.lookup_eq_some_iff.mp haction
      have hmem : (t.action, action) ∈ builtin.entries := by
        rw [hentries]
        simp
      simp only [builtin, List.mem_cons, Prod.mk.injEq, List.not_mem_nil, or_false] at hmem
      obtain ⟨-, rfl⟩ | ⟨-, rfl⟩ | ⟨-, rfl⟩ | ⟨-, rfl⟩ | ⟨-, rfl⟩ | ⟨hlimit, rfl⟩ | ⟨hby, rfl⟩ |
        ⟨hsort, rfl⟩ | ⟨-, rfl⟩ | ⟨-, rfl⟩ | ⟨-, rfl⟩ | ⟨-, rfl⟩ | ⟨-, rfl⟩ := hmem
      · exact .inr (.inr (Action.isTest_property h))
      · exact .inr (.inr (Action.isTest_tagged h))
      · exact .inr (.inr (Action.isTest_tagged h))
      · exact .inr (.inr (Action.isTest_site h))
      · exact .inr (.inr (Action.isTest_visitCount h))
      · exact .inr (.inl ⟨hlimit, Action.exists_limit h⟩)
      · exact .inl ⟨.inl hby, h⟩
      · exact .inl ⟨.inr hsort, h⟩
      all_goals exact .inr (.inr (Action.isTest_day h))
  · cases h

namespace Filter

variable {zone : Zone} {b : Bookmark}

/-- What a test asks of a bookmark. A moment is asked about by its date in the time zone. -/
def Passes (zone : Zone) (b : Bookmark) : Filter → Prop
  | .untagged => b.tags.isBlank
  | .anyTag => ¬b.tags.isBlank
  | .tag name =>
    match b.tags with
    | .names set => name ∈ set.names
    | tags => tags.holds name = .ok true
  | .site name => ∃ host, b.locator.host? = some host ∧
      (host = name ∨ ∃ sub, host = sub ++ "." ++ name)
  | .visits op count => ∃ n o, b.visitCount.numeric? = some n ∧
      n.compare? (.finite (.ofInt count)) = some o ∧ op.holds o
  | .day field op date => ∃ t d, field.of b = some t ∧ t.localDate? zone = some d ∧
      op.holds (compare d date)
  | .custom test => test b = .ok true

theorem isWithinSite_iff {site host : String} :
    isWithinSite site.toList host.toList ↔ host = site ∨ ∃ sub, host = sub ++ "." ++ site := by
  rw [isWithinSite, Bool.or_eq_true, beq_iff_eq, List.isSuffixOf_iff_suffix]
  refine or_congr String.toList_inj ?_
  constructor
  · rintro ⟨sub, hsub⟩
    refine ⟨String.ofList sub, String.toList_inj.mp ?_⟩
    rw [← hsub]
    simp
  · rintro ⟨sub, rfl⟩
    exact ⟨sub.toList, by simp⟩

theorem compareValues_of_numeric {v : Json} {n : Numeric} (hn : v.numeric? = some n)
    (op : Comparison) (count : Int) :
    v.compareValues op (.int count) =
      .ok (((n.compare? (.finite (.ofInt count))).map op.holds).getD false) := by
  have hcompare : v.compareBy op (.int count) =
      .ok (((n.compare? (.finite (.ofInt count))).map op.holds).getD false) := by
    cases v with
    | null | text | list | object => cases hn
    | _ =>
        cases hn
        simp only [Json.compareBy, Json.numeric?]
        split <;> simp [*]
  rw [Json.compareValues, hcompare]

theorem compareValues_ne_true {v : Json} (hn : v.numeric? = none) (op : Comparison) (count : Int) :
    v.compareValues op (.int count) ≠ .ok true := by
  have hcompare : v.compareBy op (.int count) ≠ .ok true := by
    cases v with
    | bool | int | float => cases hn
    | _ =>
        simp only [Json.compareBy, Json.numeric?, Json.same]
        split <;> simp
  rw [Json.compareValues]
  split
  · next b hb =>
      rw [hb] at hcompare
      simpa using hcompare
  · simp

/-- A bookmark is kept by a test that it passes. -/
theorem holds_eq_true_iff {test : Filter} : test.holds zone b = .ok true ↔ test.Passes zone b := by
  cases test with
  | untagged => simp [holds, Passes]
  | anyTag => simp [holds, Passes]
  | tag name =>
      rw [holds, Passes]
      cases b.tags with
      | names set => simp [Tags.holds, TagSet.contains]
      | other v => exact Iff.rfl
  | site name =>
      rw [holds, Passes]
      cases b.locator.host? with
      | none => simp
      | some host => simp [isWithinSite_iff]
  | visits op count =>
      rw [holds, Passes]
      split
      · next hnull =>
          cases hcount : b.visitCount with
          | null => simp [Json.numeric?]
          | _ => simp [hcount, Json.isNull] at hnull
      · cases hn : b.visitCount.numeric? with
        | none => simpa using compareValues_ne_true hn op count
        | some n =>
            rw [compareValues_of_numeric hn]
            cases hordering : n.compare? (.finite (.ofInt count)) <;> simp [hordering]
  | day field op date =>
      rw [holds, Passes]
      cases field.of b with
      | none => simp
      | some t =>
          cases hdate : t.localDate? zone <;>
            simp [localDate, hdate, pure, Except.pure]
  | custom test => exact Iff.rfl

end Filter

/-- Whether every test and every order can be told of a bookmark: its title is a text, its tags can
be gone through, its visit count is a number if there is one, and its moments have dates in the time
zone. -/
structure Bookmark.IsQueryable (zone : Zone) (b : Bookmark) : Prop where
  title : ∃ s, b.title = .text s
  tags : ∃ items, b.tags.items = .ok items
  visitCount : b.visitCount = .null ∨ ∃ n, b.visitCount.numeric? = some n ∧ n ≠ .notANumber
  dates : ∀ (field : DateField) t, field.of b = some t → ∃ d, t.localDate? zone = some d

namespace Bookmark.IsQueryable

variable {zone : Zone} {b : Bookmark}

theorem exists_holds (hb : b.IsQueryable zone) {test : Filter} (htest : ∀ f, test ≠ .custom f) :
    ∃ kept, test.holds zone b = .ok kept := by
  cases test with
  | untagged => exact ⟨_, rfl⟩
  | anyTag => exact ⟨_, rfl⟩
  | tag name =>
      obtain ⟨items, hitems⟩ := hb.tags
      rw [Filter.holds]
      cases htags : b.tags with
      | names set => exact ⟨_, rfl⟩
      | other v =>
          rw [htags] at hitems
          cases v <;> first | exact ⟨_, rfl⟩ | cases hitems
  | site name => exact ⟨_, rfl⟩
  | visits op count =>
      rw [Filter.holds]
      obtain hnull | ⟨n, hn, -⟩ := hb.visitCount
      · rw [hnull]
        exact ⟨_, rfl⟩
      · rw [Filter.compareValues_of_numeric hn]
        split <;> exact ⟨_, rfl⟩
  | day field op date =>
      rw [Filter.holds]
      cases hmoment : field.of b with
      | none => exact ⟨_, rfl⟩
      | some t =>
          obtain ⟨d, hd⟩ := hb.dates field t hmoment
          simp [localDate, hd, pure, Except.pure]
  | custom f => exact absurd rfl (htest f)

theorem key_eq (hb : b.IsQueryable zone) (f : SortField) : f.key b = .ok (f.key? b) := by
  cases f with
  | title =>
      obtain ⟨s, hs⟩ := hb.title
      simp [SortField.key?, SortField.key, hs]
  | _ => rfl

theorem isOf_key? (hb : b.IsQueryable zone) {f : SortField} {k : SortKey}
    (hk : f.key? b = some k) : k.IsOf f := by
  cases f with
  | created | lastVisited | modified =>
      obtain ⟨t, -, rfl⟩ := Option.map_eq_some_iff.mp hk
      trivial
  | visitCount =>
      obtain ⟨n, hn, rfl⟩ := Option.map_eq_some_iff.mp hk
      obtain hnull | ⟨m, hm, hne⟩ := hb.visitCount
      · rw [hnull] at hn
        cases hn
      · rw [hm] at hn
        cases hn
        exact hne
  | title =>
      obtain ⟨s, hs⟩ := hb.title
      simp only [SortField.key?, SortField.key, hs, Option.some.injEq] at hk
      subst hk
      trivial
  | url =>
      cases hk
      trivial

end Bookmark.IsQueryable

end LinkShelf
