import LinkShelf.Proofs.Query.Stages

/-!
The meaning of queries. A query asks for the bookmarks that pass all its tests, in the order of its
last `by` term, those on a par in the order of the one before it and so on, and in the end as they
stood. Main statement: what a query gives is this and nothing else, wherever the tests stand among
the `by` terms (`run_eq_answer`).
-/

namespace LinkShelf

namespace Stage

def test? : Stage → Option Filter
  | .keep test => some test
  | _ => none

def order? : Stage → Option SortOrder
  | .sort o => some o
  | _ => none

end Stage

/-- Whether one of two bookmarks with their places in a list comes before the other. The first of the
orders that tells them apart decides, and where none does their places do. -/
def Precedes : List SortOrder → Bookmark × Nat → Bookmark × Nat → Prop
  | [], x, y => x.2 < y.2
  | o :: rest, x, y =>
    o.comparing (o.field.key? x.1) (o.field.key? y.1) = .lt ∨
      (o.comparing (o.field.key? x.1) (o.field.key? y.1) = .eq ∧ Precedes rest x y)

theorem Precedes.asymm {orders : List SortOrder} {x y : Bookmark × Nat}
    (hxy : Precedes orders x y) (hyx : Precedes orders y x) : False := by
  induction orders with
  | nil => exact Nat.lt_asymm hxy hyx
  | cons o rest ih =>
      rw [Precedes, ← SortOrder.comparing_swap (o.field.key? x.1)] at hyx
      obtain hlt | ⟨heq, hxy⟩ := hxy
      · simp [hlt] at hyx
      · obtain hgt | ⟨-, hyx⟩ := hyx
        · simp [heq] at hgt
        · exact ih hxy hyx

/-- Orders that two bookmarks are on a par in do not decide. -/
theorem Precedes.of_append {first rest : List SortOrder} {x y : Bookmark × Nat}
    (hfirst : ∀ o ∈ first, o.comparing (o.field.key? x.1) (o.field.key? y.1) = .eq)
    (hxy : Precedes (first ++ rest) x y) : Precedes rest x y := by
  induction first with
  | nil => exact hxy
  | cons o more ih =>
      obtain ⟨heq, hmore⟩ := List.forall_mem_cons.mp hfirst
      obtain hlt | ⟨-, hxy⟩ := hxy
      · rw [heq] at hlt
        cases hlt
      · exact ih hmore hxy

theorem Precedes.isLE {o : SortOrder} {rest : List SortOrder} {x y : Bookmark × Nat}
    (hxy : Precedes (o :: rest) x y) :
    (o.comparing (o.field.key? x.1) (o.field.key? y.1)).isLE := by
  obtain hlt | ⟨heq, -⟩ := hxy
  · rw [hlt]
    rfl
  · rw [heq]
    rfl

/-- Bookmarks of a list with their places in it, those that pass the tests and each of them once, in
the order that the orders give. -/
structure IsPlacing (zone : Zone) (bookmarks : List Bookmark) (tests : List Filter)
    (orders : List SortOrder) (placed : List (Bookmark × Nat)) : Prop where
  mem : ∀ e, e ∈ placed ↔ e ∈ bookmarks.zipIdx ∧ ∀ test ∈ tests, test.Passes zone e.1
  ordered : placed.Pairwise (Precedes orders)

namespace IsPlacing

variable {zone : Zone} {bookmarks : List Bookmark} {tests : List Filter} {orders : List SortOrder}
  {placed others : List (Bookmark × Nat)}

theorem start : IsPlacing zone bookmarks [] [] bookmarks.zipIdx := by
  refine ⟨fun e => by simp, ?_⟩
  have hplaces : (bookmarks.zipIdx.map (·.2)).Pairwise (· < ·) := by
    rw [List.zipIdx_map_snd]
    exact List.pairwise_lt_range'
  exact (List.pairwise_map (f := Prod.snd)).mp hplaces

theorem fst_mem (hplaced : IsPlacing zone bookmarks tests orders placed) {e : Bookmark × Nat}
    (he : e ∈ placed) : e.1 ∈ bookmarks := by
  have hmem := List.mem_map_of_mem (f := Prod.fst) ((hplaced.mem e).mp he).1
  rwa [List.zipIdx_map_fst] at hmem

theorem nodup (hplaced : IsPlacing zone bookmarks tests orders placed) : placed.Nodup :=
  hplaced.ordered.imp fun hxy heq => (heq ▸ hxy).asymm (heq ▸ hxy)

/-- Tests and orders leave one list only. -/
theorem unique (hplaced : IsPlacing zone bookmarks tests orders placed)
    (hothers : IsPlacing zone bookmarks tests orders others) : placed = others := by
  have hperm : placed.Perm others := by
    rw [List.perm_ext_iff_of_nodup hplaced.nodup hothers.nodup]
    intro e
    rw [hplaced.mem, hothers.mem]
  exact hperm.eq_of_pairwise (fun _ _ _ _ hxy hyx => (hxy.asymm hyx).elim) hplaced.ordered
    hothers.ordered

theorem congr_tests {moreTests : List Filter} (htests : tests.Perm moreTests) :
    IsPlacing zone bookmarks tests orders placed ↔
      IsPlacing zone bookmarks moreTests orders placed := by
  constructor
  · rintro ⟨hmem, hordered⟩
    exact ⟨fun e => by simpa only [htests.mem_iff] using hmem e, hordered⟩
  · rintro ⟨hmem, hordered⟩
    exact ⟨fun e => by simpa only [htests.mem_iff] using hmem e, hordered⟩

/-- A test that bookmarks are kept by is one more test that they pass. -/
theorem keep (hbookmarks : ∀ b ∈ bookmarks, b.IsQueryable zone)
    (hplaced : IsPlacing zone bookmarks tests orders placed) {test : Filter}
    (htest : ∀ f, test ≠ .custom f) :
    ∃ kept, (Stage.keep test).run zone (placed.map (·.1)) = .ok (kept.map (·.1)) ∧
      IsPlacing zone bookmarks (tests ++ [test]) orders kept := by
  refine ⟨placed.filter fun e => (test.holds zone e.1).toOption = some true, ?_, ?_, ?_⟩
  · refine filterM_eq_ok_iff.mpr ⟨?_, ?_⟩
    · intro b hb
      obtain ⟨e, he, rfl⟩ := List.mem_map.mp hb
      exact (hbookmarks e.1 (hplaced.fst_mem he)).exists_holds htest
    · rw [List.filter_map]
      rfl
  · intro e
    rw [List.mem_filter, hplaced.mem, decide_eq_true_eq, toOption_eq_some,
      Filter.holds_eq_true_iff, and_assoc, List.forall_mem_append]
    simp
  · exact hplaced.ordered.filter _

/-- An order that bookmarks are put in decides before the orders before it. -/
theorem sort (hbookmarks : ∀ b ∈ bookmarks, b.IsQueryable zone)
    (hplaced : IsPlacing zone bookmarks tests orders placed) (o : SortOrder) :
    ∃ sorted, (Stage.sort o).run zone (placed.map (·.1)) = .ok (sorted.map (·.1)) ∧
      IsPlacing zone bookmarks tests (o :: orders) sorted := by
  refine ⟨o.arrange (fun e => o.field.key? e.1) placed, ?_, ?_, ?_⟩
  · rw [SortOrder.map_arrange]
    refine SortOrder.sort_eq_ok_iff.mpr ⟨fun b hb => ?_, rfl⟩
    obtain ⟨e, he, rfl⟩ := List.mem_map.mp hb
    exact (hbookmarks e.1 (hplaced.fst_mem he)).key_eq o.field
  · intro e
    rw [(SortOrder.perm_arrange _ _).mem_iff, hplaced.mem]
  · refine SortOrder.pairwise_arrange (fun e he k hk => ?_) hplaced.ordered
    exact (hbookmarks e.1 (hplaced.fst_mem he)).isOf_key? hk

/-- The stages of tests and orders add them to those that bookmarks are placed by. -/
theorem stages (hbookmarks : ∀ b ∈ bookmarks, b.IsQueryable zone)
    (hplaced : IsPlacing zone bookmarks tests orders placed) {stages : List Stage}
    (hstages : ∀ stage ∈ stages, stage.IsTest ∨ ∃ o, stage = .sort o) :
    ∃ found, stages.foldlM (fun found stage => stage.run zone found) (placed.map (·.1)) =
        .ok (found.map (·.1)) ∧
      IsPlacing zone bookmarks (tests ++ stages.filterMap Stage.test?)
        ((stages.filterMap Stage.order?).reverse ++ orders) found := by
  induction stages generalizing tests orders placed with
  | nil => exact ⟨placed, rfl, by simpa using hplaced⟩
  | cons stage rest ih =>
      obtain ⟨hstage, hrest⟩ := List.forall_mem_cons.mp hstages
      rw [List.foldlM_cons]
      obtain ⟨test, rfl, htest⟩ | ⟨o, rfl⟩ := hstage
      · obtain ⟨kept, hkept, hplaced⟩ := hplaced.keep hbookmarks htest
        obtain ⟨found, hfound, hplaced⟩ := ih hplaced hrest
        refine ⟨found, by rw [hkept, ok_bind, hfound], ?_⟩
        simpa [List.filterMap_cons, Stage.test?, Stage.order?] using hplaced
      · obtain ⟨sorted, hsorted, hplaced⟩ := hplaced.sort hbookmarks o
        obtain ⟨found, hfound, hplaced⟩ := ih hplaced hrest
        refine ⟨found, by rw [hsorted, ok_bind, hfound], ?_⟩
        simpa [List.filterMap_cons, Stage.test?, Stage.order?] using hplaced

end IsPlacing

/-- How bookmarks without the field of an order stand to the others: after them in an order that is
named for the most, before them in one that is named for the least. -/
structure SortOrder.PlacesMissing (o : SortOrder) (found : List Bookmark) : Prop where
  most : "most-".toList <+: o.name.toList →
    found.Pairwise fun a b => o.field.key? a = none → o.field.key? b = none
  least : "least-".toList <+: o.name.toList →
    found.Pairwise fun a b => o.field.key? b = none → o.field.key? a = none

namespace SortOrder

theorem descending_of_most {o : SortOrder} (ho : o ∈ all)
    (hname : "most-".toList <+: o.name.toList) : o.descending = true := by
  revert o
  decide +kernel

theorem ascending_of_least {o : SortOrder} (ho : o ∈ all)
    (hname : "least-".toList <+: o.name.toList) : o.descending = false := by
  revert o
  decide +kernel

theorem placesMissing_of_pairwise {o : SortOrder} (ho : o ∈ all) {found : List Bookmark}
    (hfound : found.Pairwise fun a b => (o.comparing (o.field.key? a) (o.field.key? b)).isLE) :
    o.PlacesMissing found := by
  constructor
  · intro hname
    refine hfound.imp fun {a b} hle ha => ?_
    rw [ha] at hle
    cases hb : o.field.key? b with
    | none => rfl
    | some k => simp [hb, comparing, descending_of_most ho hname] at hle
  · intro hname
    refine hfound.imp fun {a b} hle hb => ?_
    rw [hb] at hle
    cases ha : o.field.key? a with
    | none => rfl
    | some k => simp [ha, comparing, ascending_of_least ho hname] at hle

end SortOrder

namespace Query

variable {zone : Zone} {present : Present} {terms rearranged : List Term} {q : Query}
  {bookmarks : List Bookmark}

/-- The tests of a query. -/
def tests (q : Query) : List Filter := q.stages.filterMap Stage.test?

/-- The orders of a query, as its terms name them. -/
def orders (q : Query) : List SortOrder := q.stages.filterMap Stage.order?

/-- What a query asks for: the bookmarks that pass its tests, ordered by its last order first. -/
def IsAnswer (zone : Zone) (q : Query) (bookmarks found : List Bookmark) : Prop :=
  ∃ placed, IsPlacing zone bookmarks q.tests q.orders.reverse placed ∧ found = placed.map (·.1)

theorem ofTerms_eq_ok_iff {r : Registry} :
    ofTerms r present terms = .ok q ↔
      (∀ t ∈ terms, ∃ stage, r.compile present t = .ok stage) ∧
        q = ⟨terms, terms.filterMap (r.stage? present)⟩ := by
  simp only [ofTerms, bind_eq_ok, mapM_eq_ok_iff, pure, Except.pure, Except.ok.injEq]
  constructor
  · rintro ⟨stages, ⟨hterms, rfl⟩, rfl⟩
    exact ⟨hterms, rfl⟩
  · rintro ⟨hterms, rfl⟩
    exact ⟨_, ⟨hterms, rfl⟩, rfl⟩

theorem exists_term_of_stage {r : Registry} (hq : ofTerms r present terms = .ok q) {stage : Stage}
    (hstage : stage ∈ q.stages) : ∃ t ∈ terms, r.compile present t = .ok stage := by
  obtain ⟨-, rfl⟩ := ofTerms_eq_ok_iff.mp hq
  obtain ⟨t, ht, hcompile⟩ := List.mem_filterMap.mp hstage
  exact ⟨t, ht, Registry.stage?_eq_some_iff.mp hcompile⟩

/-- Only terms that put bookmarks in order name orders. -/
theorem orders_eq_filter (hq : ofTerms .builtin present terms = .ok q) :
    q.orders = (terms.filter fun t => t.IsOrdering).filterMap fun t =>
      (Registry.builtin.stage? present t).bind Stage.order? := by
  obtain ⟨-, rfl⟩ := ofTerms_eq_ok_iff.mp hq
  rw [orders, List.filterMap_filterMap, List.filterMap_filter]
  refine List.filterMap_congr fun t _ => ?_
  split
  · rfl
  · next hother =>
      cases hstage : Registry.builtin.stage? present t with
      | none => rfl
      | some stage =>
          obtain ⟨hordering, -⟩ | ⟨-, n, rfl⟩ | ⟨test, rfl, -⟩ :=
            Registry.compile_builtin (Registry.stage?_eq_some_iff.mp hstage)
          · simp [hordering] at hother
          · rfl
          · rfl

theorem mem_all_of_mem_orders (hq : ofTerms .builtin present terms = .ok q) {o : SortOrder}
    (ho : o ∈ q.orders) : o ∈ SortOrder.all := by
  obtain ⟨stage, hstage, horder⟩ := List.mem_filterMap.mp ho
  obtain ⟨t, -, hcompile⟩ := exists_term_of_stage hq hstage
  obtain ⟨-, hstage⟩ | ⟨-, n, rfl⟩ | ⟨test, rfl, -⟩ := Registry.compile_builtin hcompile
  · obtain ⟨other, hother, rfl⟩ := Action.exists_order hstage
    cases horder
    exact List.mem_of_find?_eq_some hother
  · cases horder
  · cases horder

/-- Terms in another sequence make a query of the same tests, and of the same orders where the terms
that name them keep their sequence. -/
theorem ofTerms_of_perm (hq : ofTerms .builtin present terms = .ok q)
    (hperm : rearranged.Perm terms)
    (horders : (rearranged.filter fun t => t.IsOrdering) = terms.filter fun t => t.IsOrdering) :
    ∃ again, ofTerms .builtin present rearranged = .ok again ∧ again.tests.Perm q.tests ∧
      again.orders = q.orders := by
  obtain ⟨hterms, hstages⟩ := ofTerms_eq_ok_iff.mp hq
  have hagain := ofTerms_eq_ok_iff.mpr ⟨fun t ht => hterms t (hperm.mem_iff.mp ht), rfl⟩
  refine ⟨_, hagain, ?_, ?_⟩
  · rw [hstages]
    exact (hperm.filterMap _).filterMap _
  · rw [orders_eq_filter hagain, orders_eq_filter hq, horders]

theorem isTest_or_sort (hq : ofTerms .builtin present terms = .ok q)
    (hterms : ∀ t ∈ terms, t.action ≠ "limit") :
    ∀ stage ∈ q.stages, stage.IsTest ∨ ∃ o, stage = .sort o := by
  intro stage hstage
  obtain ⟨t, ht, hcompile⟩ := exists_term_of_stage hq hstage
  obtain ⟨-, hstage⟩ | ⟨hlimit, -⟩ | htest := Registry.compile_builtin hcompile
  · obtain ⟨o, -, rfl⟩ := Action.exists_order hstage
    exact .inr ⟨o, rfl⟩
  · exact absurd hlimit (hterms t ht)
  · exact .inl htest

/-- A query of tests and orders gives an answer. -/
theorem exists_isAnswer (hq : ofTerms .builtin present terms = .ok q)
    (hterms : ∀ t ∈ terms, t.action ≠ "limit") (hbookmarks : ∀ b ∈ bookmarks, b.IsQueryable zone) :
    ∃ found, q.run zone bookmarks = .ok found ∧ q.IsAnswer zone bookmarks found := by
  obtain ⟨placed, hrun, hplaced⟩ :=
    IsPlacing.start.stages hbookmarks (isTest_or_sort hq hterms)
  rw [List.zipIdx_map_fst] at hrun
  rw [List.nil_append, List.append_nil] at hplaced
  exact ⟨_, hrun, placed, hplaced, rfl⟩

theorem IsAnswer.unique {found other : List Bookmark} (hfound : q.IsAnswer zone bookmarks found)
    (hother : q.IsAnswer zone bookmarks other) : other = found := by
  obtain ⟨placed, hplaced, rfl⟩ := hfound
  obtain ⟨others, hothers, rfl⟩ := hother
  rw [hplaced.unique hothers]

/-- In an answer, the bookmarks that are on a par in all later orders are placed by an order. -/
theorem IsAnswer.placesMissing (hq : ofTerms .builtin present terms = .ok q)
    {found group : List Bookmark} (hfound : q.IsAnswer zone bookmarks found)
    {front back : List SortOrder} {o : SortOrder} (horders : q.orders = front ++ o :: back)
    (hgroup : group.Sublist found)
    (hpar : group.Pairwise fun a b => ∀ later ∈ back,
      later.comparing (later.field.key? a) (later.field.key? b) = .eq) :
    o.PlacesMissing group := by
  obtain ⟨placed, hplaced, rfl⟩ := hfound
  obtain ⟨members, hmembers, rfl⟩ := List.sublist_map_iff.mp hgroup
  refine SortOrder.placesMissing_of_pairwise (mem_all_of_mem_orders hq (by simp [horders])) ?_
  have hordered := hplaced.ordered.sublist hmembers
  simp only [horders, List.reverse_append, List.reverse_cons, List.append_assoc] at hordered
  rw [List.pairwise_map] at hpar ⊢
  refine (hordered.and hpar).imp ?_
  rintro x y ⟨hxy, hpar⟩
  exact (Precedes.of_append (fun later hlater => hpar later (List.mem_reverse.mp hlater)) hxy).isLE

/-- A query of builtin tests and orders gives the bookmarks that pass all tests, in the order of its
last order, those on a par in the one before it, and in the end as they stood. -/
theorem run_eq_answer (hq : ofTerms .builtin present terms = .ok q)
    (hterms : ∀ t ∈ terms, t.action ≠ "limit") (hbookmarks : ∀ b ∈ bookmarks, b.IsQueryable zone) :
    ∃ found, q.run zone bookmarks = .ok found ∧
      (∀ other, q.IsAnswer zone bookmarks other ↔ other = found) ∧
      (∀ front o back, q.orders = front ++ o :: back → ∀ group : List Bookmark,
        group.Sublist found →
        (group.Pairwise fun a b => ∀ later ∈ back,
          later.comparing (later.field.key? a) (later.field.key? b) = .eq) →
        o.PlacesMissing group) ∧
      ∀ rearranged : List Term, rearranged.Perm terms →
        ((rearranged.filter fun t => t.IsOrdering) = terms.filter fun t => t.IsOrdering) →
        ∃ again, ofTerms .builtin present rearranged = .ok again ∧
          again.run zone bookmarks = .ok found := by
  obtain ⟨found, hrun, hfound⟩ := exists_isAnswer hq hterms hbookmarks
  refine ⟨found, hrun, ?_, ?_, ?_⟩
  · intro other
    constructor
    · exact hfound.unique
    · rintro rfl
      exact hfound
  · intro front o back horders group hgroup hpar
    exact hfound.placesMissing hq horders hgroup hpar
  · intro rearranged hperm horders
    obtain ⟨again, hagain, htests, hsame⟩ := ofTerms_of_perm hq hperm horders
    refine ⟨again, hagain, ?_⟩
    obtain ⟨other, hrunAgain, placed, hplaced, rfl⟩ := exists_isAnswer hagain
      (fun t ht => hterms t (hperm.mem_iff.mp ht)) hbookmarks
    rw [hsame] at hplaced
    rw [hrunAgain, hfound.unique ⟨placed, (IsPlacing.congr_tests htests).mp hplaced, rfl⟩]

/-! Four pages, three of them of one site: two were visited as often and one never. -/

def visitedPage (url : String) (visits : Json) (last : Option Instant) : Bookmark where
  locator := ⟨url⟩
  title := .text "Lean"
  notes := .text ""
  image := .null
  tags := .names (.ofList ["lean"])
  color := .null
  created := none
  modified := none
  lastVisited := last
  visitCount := visits

def morning : Instant := ⟨63713462400000000, by decide⟩

def evening : Instant := ⟨63713498400000000, by decide⟩

def samplePages : List Bookmark :=
  [visitedPage "http://www.a.org/" (.int 3) (some morning),
    visitedPage "http://b.org/" (.int 9) (some evening),
    visitedPage "http://old.a.org/" .null none,
    visitedPage "http://a.org/" (.int 3) (some evening)]

def samplePresent : Present := ⟨{ year := 2020, month := 1, day := 2, day_le := by decide }, 0⟩

def leastVisited : SortOrder := ⟨"least-visited", .visitCount, false⟩

def sampleTerms : List Term :=
  [⟨"by", "most-recently-visited"⟩, ⟨"site", "A.org"⟩, ⟨"sort", "least-visited"⟩]

def sampleQuery : Query :=
  ⟨sampleTerms, [.sort .mostRecentlyVisited, .keep (.site "a.org"), .sort leastVisited]⟩

theorem visitedPage_isQueryable {url : String} {visits : Json} {last : Option Instant}
    (hvisits : visits = .null ∨ ∃ n, visits = .int n)
    (hlast : ∀ t, last = some t → ∃ d, t.localDate? .utc = some d) :
    (visitedPage url visits last).IsQueryable .utc where
  title := ⟨_, rfl⟩
  tags := ⟨_, rfl⟩
  visitCount := by
    obtain rfl | ⟨n, rfl⟩ := hvisits
    · exact .inl rfl
    · exact .inr ⟨_, rfl, nofun⟩
  dates := by
    intro field t ht
    cases field with
    | lastVisited => exact hlast t ht
    | _ => cases ht

theorem samplePages_areQueryable : ∀ b ∈ samplePages, b.IsQueryable .utc := by
  have hmorning : ∃ d, morning.localDate? .utc = some d := ⟨_, rfl⟩
  have hevening : ∃ d, evening.localDate? .utc = some d := ⟨_, rfl⟩
  simp only [samplePages, List.forall_mem_cons]
  refine ⟨?_, ?_, ?_, ?_, nofun⟩
  · exact visitedPage_isQueryable (.inr ⟨3, rfl⟩) fun t ht => Option.some.inj ht ▸ hmorning
  · exact visitedPage_isQueryable (.inr ⟨9, rfl⟩) fun t ht => Option.some.inj ht ▸ hevening
  · exact visitedPage_isQueryable (.inl rfl) nofun
  · exact visitedPage_isQueryable (.inr ⟨3, rfl⟩) fun t ht => Option.some.inj ht ▸ hevening

/-- The pages of the site, as `sampleQuery` asks for them. -/
def placedPages : List (Bookmark × Nat) :=
  [(visitedPage "http://old.a.org/" .null none, 2),
    (visitedPage "http://a.org/" (.int 3) (some evening), 3),
    (visitedPage "http://www.a.org/" (.int 3) (some morning), 0)]

theorem placedPages_isPlacing :
    IsPlacing .utc samplePages sampleQuery.tests sampleQuery.orders.reverse placedPages where
  mem := by
    have hsite : ∀ e ∈ samplePages.zipIdx, (Filter.site "a.org").Passes .utc e.1 ↔ e.2 ≠ 1 := by
      simp only [← Filter.holds_eq_true_iff]
      decide +kernel
    have htests : ∀ b, (∀ test ∈ sampleQuery.tests, test.Passes .utc b) ↔
        (Filter.site "a.org").Passes .utc b := fun b => List.forall_mem_singleton
    intro e
    rw [htests]
    constructor
    · intro he
      have hplace : e ∈ samplePages.zipIdx ∧ e.2 ≠ 1 := by
        revert e
        simp [placedPages, samplePages]
      exact ⟨hplace.1, (hsite e hplace.1).mpr hplace.2⟩
    · rintro ⟨he, hpasses⟩
      have hplace := (hsite e he).mp hpasses
      revert e
      simp [placedPages, samplePages]
  ordered := by
    simp only [placedPages, List.pairwise_cons, List.forall_mem_cons]
    exact ⟨⟨.inl rfl, .inl rfl, nofun⟩, ⟨.inr ⟨rfl, .inl rfl⟩, nofun⟩, nofun, .nil⟩

/-- The page without visits stands first and the other two by their last visits, also where the site
is asked for at the end. -/
theorem run_eq_answer_samplePages :
    ofTerms .builtin samplePresent sampleTerms = .ok sampleQuery ∧
      ∃ found, sampleQuery.run .utc samplePages = .ok found ∧
        found.map Bookmark.url = ["http://old.a.org/", "http://a.org/", "http://www.a.org/"] ∧
        (∀ other, sampleQuery.IsAnswer .utc samplePages other ↔ other = found) ∧
        leastVisited.PlacesMissing found ∧
        ∃ again, ofTerms .builtin samplePresent [⟨"by", "most-recently-visited"⟩,
            ⟨"sort", "least-visited"⟩, ⟨"site", "A.org"⟩] = .ok again ∧
          again.run .utc samplePages = .ok found := by
  have hquery : ofTerms .builtin samplePresent sampleTerms = .ok sampleQuery := rfl
  obtain ⟨found, hrun, hanswer, hmissing, hrearranged⟩ :=
    run_eq_answer hquery (by decide) samplePages_areQueryable
  obtain rfl := (hanswer _).mp ⟨placedPages, placedPages_isPlacing, rfl⟩
  refine ⟨hquery, _, hrun, rfl, hanswer, ?_, ?_⟩
  · exact hmissing [.mostRecentlyVisited] leastVisited [] rfl _ (List.Sublist.refl _)
      (List.pairwise_of_forall fun _ _ => nofun)
  · exact hrearranged _ (by decide) (by decide)

end Query

end LinkShelf
