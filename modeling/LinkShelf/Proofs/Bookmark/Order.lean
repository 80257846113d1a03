import LinkShelf.Bookmark.Order
import LinkShelf.Proofs.Number.Comparison
import LinkShelf.Proofs.Outcome
import Mathlib.Data.List.Nodup

/-!
Orders of bookmarks. A sort splits off the bookmarks without the field and puts the others in order
by their keys. Main statement: what it gives is ordered by the field, the bookmarks without it at
the end or at the start, and where two are on a par they stand as they stood before
(`pairwise_arrange`).
-/

namespace LinkShelf

section

variable {α : Type} {le : α → α → Bool} {R : α → α → Prop} {l : List α}

/-- A list in which every pair is related is sorted into one in which every pair that is on a par is
related. -/
theorem pairwise_mergeSort_of_lawful (htrans : ∀ a b c, le a b → le b c → le a c)
    (htotal : ∀ a b, le a b || le b a) (hR : l.Pairwise R) :
    (l.mergeSort le).Pairwise fun a b => le a b ∧ (le b a → R a b) := by
  have hsorted := List.pairwise_mergeSort (List.zipIdxLE_trans htrans) (List.zipIdxLE_total htotal)
    l.zipIdx
  have hdistinct : ((l.zipIdx.mergeSort (List.zipIdxLE le)).map (·.2)).Nodup := by
    rw [((List.mergeSort_perm _ _).map _).nodup_iff, List.zipIdx_map_snd]
    exact List.nodup_range'
  rw [← List.mergeSort_zipIdx, List.pairwise_map]
  refine (hsorted.and (List.pairwise_map.mp hdistinct)).imp_of_mem ?_
  rintro ⟨a, i⟩ ⟨b, j⟩ ha hb ⟨hle, hne⟩
  rw [List.mem_mergeSort, List.mem_zipIdx_iff_getElem?, List.getElem?_eq_some_iff] at ha hb
  dsimp only at ha hb hne ⊢
  obtain ⟨hi, rfl⟩ := ha
  obtain ⟨hj, rfl⟩ := hb
  simp only [List.zipIdxLE] at hle
  split at hle
  · next hij =>
      refine ⟨hij, fun hji => ?_⟩
      rw [if_pos hji, decide_eq_true_eq] at hle
      exact List.pairwise_iff_getElem.mp hR i j hi hj (by omega)
  · cases hle

/-- Only the members of the list have to be comparable. -/
theorem pairwise_mergeSort_of_pairwise
    (htrans : ∀ a ∈ l, ∀ b ∈ l, ∀ c ∈ l, le a b → le b c → le a c)
    (htotal : ∀ a ∈ l, ∀ b ∈ l, le a b || le b a) (hR : l.Pairwise R) :
    (l.mergeSort le).Pairwise fun a b => le a b ∧ (le b a → R a b) := by
  let leIn : { a // a ∈ l } → { a // a ∈ l } → Bool := fun a b => le a b
  have hmap : (l.attach.mergeSort leIn).map Subtype.val = l.mergeSort le := by
    rw [List.map_mergeSort (s := le) fun _ _ _ _ => rfl, List.attach_map_subtype_val]
  rw [← hmap, List.pairwise_map]
  change (l.attach.mergeSort leIn).Pairwise fun a b => leIn a b ∧ (leIn b a → R a b)
  refine pairwise_mergeSort_of_lawful (R := fun (a b : { a // a ∈ l }) => R a b) ?_ ?_ ?_
  · exact fun a b c => htrans a a.2 b b.2 c c.2
  · exact fun a b => htotal a a.2 b b.2
  · rwa [← List.pairwise_map (f := Subtype.val), List.attach_map_subtype_val]

end

namespace SortKey

theorem compare_swap (a b : SortKey) : (a.compare b).swap = b.compare a := by
  cases a with
  | moment t =>
      cases b with
      | moment u => exact Nat.compare_swap _ _
      | _ => rfl
  | count n =>
      cases b with
      | count m => exact n.order_swap m
      | _ => rfl
  | title folded plain =>
      cases b with
      | title otherFolded otherPlain =>
          simp only [compare, Ordering.swap_then, ← Std.OrientedOrd.eq_swap]
      | _ => rfl
  | url s =>
      cases b with
      | url s' => exact Std.OrientedOrd.eq_swap.symm
      | _ => rfl

/-- Whether a key is one of a field, and has a place in the order of its keys. -/
def IsOf : SortField → SortKey → Prop
  | .created, .moment _ => True
  | .lastVisited, .moment _ => True
  | .modified, .moment _ => True
  | .visitCount, .count n => n ≠ .notANumber
  | .title, .title _ _ => True
  | .url, .url _ => True
  | _, _ => False

theorem isLE_compare_trans {f : SortField} {a b c : SortKey} (ha : a.IsOf f) (hb : b.IsOf f)
    (hc : c.IsOf f) (hab : (a.compare b).isLE) (hbc : (b.compare c).isLE) :
    (a.compare c).isLE := by
  have hmoment (t u v : Instant) (htu : ((moment t).compare (moment u)).isLE)
      (huv : ((moment u).compare (moment v)).isLE) : ((moment t).compare (moment v)).isLE :=
    Std.TransOrd.isLE_trans (α := Nat) htu huv
  cases f with
  | visitCount =>
      cases a <;> cases b <;> cases c <;> try contradiction
      exact Numeric.isLE_order_trans hb hab hbc
  | title =>
      cases a <;> cases b <;> cases c <;> try contradiction
      next a a' b b' c c' =>
        have htrans : Std.TransCmp (α := String × String)
            (compareLex (compareOn Prod.fst) (compareOn Prod.snd)) := inferInstance
        exact htrans.isLE_trans (a := (a, a')) (b := (b, b')) (c := (c, c')) hab hbc
  | url =>
      cases a <;> cases b <;> cases c <;> try contradiction
      exact Std.TransOrd.isLE_trans (α := String) hab hbc
  | _ =>
      cases a <;> cases b <;> cases c <;> try contradiction
      exact hmoment _ _ _ hab hbc

end SortKey

/-- The key of a bookmark in a field, where it has one that can be compared. -/
def SortField.key? (f : SortField) (b : Bookmark) : Option SortKey :=
  match f.key b with
  | .ok key => key
  | .error _ => none

namespace SortOrder

variable {α β : Type} {o : SortOrder}

/-- How two keys stand to each other in an order. One that is missing comes after all others in a
descending order and before them in an ascending one. -/
def comparing (o : SortOrder) : Option SortKey → Option SortKey → Ordering
  | some a, some b => if o.descending then b.compare a else a.compare b
  | some _, none => if o.descending then .lt else .gt
  | none, some _ => if o.descending then .gt else .lt
  | none, none => .eq

theorem comparing_swap (a b : Option SortKey) : (o.comparing a b).swap = o.comparing b a := by
  cases a with
  | none => cases b <;> simp [comparing, apply_ite Ordering.swap]
  | some a =>
      cases b with
      | none => simp [comparing, apply_ite Ordering.swap]
      | some b => simp [comparing, apply_ite Ordering.swap, SortKey.compare_swap]

theorem allows_eq (a b : SortKey) : o.allows a b = (o.comparing (some a) (some b)).isLE := by
  simp only [allows, comparing, ← SortKey.compare_swap b a]
  cases o.descending <;> cases b.compare a <;> rfl

theorem isLE_comparing_trans {a b c : SortKey} (ha : a.IsOf o.field) (hb : b.IsOf o.field)
    (hc : c.IsOf o.field) (hab : (o.comparing (some a) (some b)).isLE)
    (hbc : (o.comparing (some b) (some c)).isLE) : (o.comparing (some a) (some c)).isLE := by
  simp only [comparing] at hab hbc ⊢
  split at hab
  · next hdescending =>
      rw [if_pos hdescending] at hbc ⊢
      exact SortKey.isLE_compare_trans hc hb ha hbc hab
  · next hdescending =>
      rw [if_neg hdescending] at hbc ⊢
      exact SortKey.isLE_compare_trans ha hb hc hab hbc

/-- A list in the order of its keys. -/
def arrange (o : SortOrder) (key : α → Option SortKey) (l : List α) : List α :=
  let ordered := (l.filter fun x => (key x).isSome).mergeSort fun x y =>
    (o.comparing (key x) (key y)).isLE
  let missing := l.filter fun x => (key x).isNone
  if o.descending then ordered ++ missing else missing ++ ordered

theorem sort_eq_arrange {bookmarks : List Bookmark}
    (hkeys : ∀ b ∈ bookmarks, o.field.key b = .ok (o.field.key? b)) :
    o.sort bookmarks = .ok (o.arrange o.field.key? bookmarks) := by
  let pair : Bookmark → Option (SortKey × Bookmark) := fun b => (o.field.key? b).map (·, b)
  have hkeyed : bookmarks.mapM (fun b => do return (← o.field.key b, b)) =
      .ok (bookmarks.map fun b => (o.field.key? b, b)) := by
    refine mapM_eq_ok_iff.mpr ⟨fun b hb => ⟨_, by rw [hkeys b hb]; rfl⟩, ?_⟩
    rw [← List.filterMap_eq_map]
    refine List.filterMap_congr fun b hb => ?_
    rw [hkeys b hb]
    rfl
  have hpresent : (bookmarks.filterMap pair).map (·.2) =
      bookmarks.filter fun b => (o.field.key? b).isSome := by
    rw [List.map_filterMap, ← List.filterMap_eq_filter]
    refine List.filterMap_congr fun b _ => ?_
    cases hkey : o.field.key? b <;> simp [pair, hkey, Option.guard]
  have hordered : ((bookmarks.filterMap pair).mergeSort fun x y => o.allows x.1 y.1).map (·.2) =
      (bookmarks.filter fun b => (o.field.key? b).isSome).mergeSort fun b c =>
        (o.comparing (o.field.key? b) (o.field.key? c)).isLE := by
    rw [← hpresent]
    refine List.map_mergeSort ?_
    intro x hx y hy
    obtain ⟨b, -, hx⟩ := List.mem_filterMap.mp hx
    obtain ⟨k, hk, rfl⟩ := Option.map_eq_some_iff.mp hx
    obtain ⟨c, -, hy⟩ := List.mem_filterMap.mp hy
    obtain ⟨m, hm, rfl⟩ := Option.map_eq_some_iff.mp hy
    rw [allows_eq, hk, hm]
  have hmissing : (bookmarks.filterMap fun b =>
      if (o.field.key? b).isNone then some b else none) =
        bookmarks.filter fun b => (o.field.key? b).isNone := by
    rw [← List.filterMap_eq_filter]
    rfl
  rw [sort, hkeyed, ok_bind]
  simp only [List.filterMap_map, Function.comp_def]
  rw [hordered, hmissing]
  rfl

/-- Bookmarks are sorted as soon as their keys can be told. -/
theorem sort_eq_ok_iff {bookmarks found : List Bookmark} :
    o.sort bookmarks = .ok found ↔
      (∀ b ∈ bookmarks, o.field.key b = .ok (o.field.key? b)) ∧
        found = o.arrange o.field.key? bookmarks := by
  constructor
  · intro h
    have hkeys : ∀ b ∈ bookmarks, o.field.key b = .ok (o.field.key? b) := by
      intro b hb
      obtain ⟨keyed, hkeyed, -⟩ := bind_eq_ok.mp h
      obtain ⟨pair, hpair⟩ := (mapM_eq_ok_iff.mp hkeyed).1 b hb
      obtain ⟨key, hkey, -⟩ := bind_eq_ok.mp hpair
      rw [SortField.key?, hkey]
    rw [sort_eq_arrange hkeys] at h
    exact ⟨hkeys, (Except.ok.inj h).symm⟩
  · rintro ⟨hkeys, rfl⟩
    exact sort_eq_arrange hkeys

theorem map_arrange (key : β → Option SortKey) (f : α → β) (l : List α) :
    (o.arrange (fun x => key (f x)) l).map f = o.arrange key (l.map f) := by
  have hordered : ((l.filter fun x => (key (f x)).isSome).mergeSort fun x y =>
      (o.comparing (key (f x)) (key (f y))).isLE).map f =
        ((l.map f).filter fun x => (key x).isSome).mergeSort fun x y =>
          (o.comparing (key x) (key y)).isLE := by
    rw [List.map_mergeSort (s := fun x y => (o.comparing (key x) (key y)).isLE)
      fun _ _ _ _ => rfl, List.filter_map]
    rfl
  have hmissing : (l.filter fun x => (key (f x)).isNone).map f =
      (l.map f).filter fun x => (key x).isNone := by
    rw [List.filter_map]
    rfl
  simp only [arrange, apply_ite (List.map f), List.map_append, hordered, hmissing]

theorem perm_arrange (key : α → Option SortKey) (l : List α) : (o.arrange key l).Perm l := by
  have hparts : (l.filter (fun x => (key x).isSome) ++ l.filter fun x => (key x).isNone).Perm l := by
    simpa using List.filter_append_perm (fun x => (key x).isSome) l
  have hordered := (List.mergeSort_perm (l.filter fun x => (key x).isSome) fun x y =>
    (o.comparing (key x) (key y)).isLE).append_right (l.filter fun x => (key x).isNone)
  rw [arrange]
  split
  · exact hordered.trans hparts
  · exact List.perm_append_comm.trans (hordered.trans hparts)

/-- A list in which every pair is related is put into an order in which every pair that is on a par
is related. -/
theorem pairwise_arrange {key : α → Option SortKey} {R : α → α → Prop} {l : List α}
    (hkeys : ∀ x ∈ l, ∀ k, key x = some k → k.IsOf o.field) (hR : l.Pairwise R) :
    (o.arrange key l).Pairwise fun x y =>
      o.comparing (key x) (key y) = .lt ∨ (o.comparing (key x) (key y) = .eq ∧ R x y) := by
  have hpresent : ∀ x ∈ l.filter fun x => (key x).isSome,
      ∃ k, key x = some k ∧ k.IsOf o.field := by
    intro x hx
    obtain ⟨hx, hkey⟩ := List.mem_filter.mp hx
    obtain ⟨k, hk⟩ := Option.isSome_iff_exists.mp hkey
    exact ⟨k, hk, hkeys x hx k hk⟩
  have hordered : ((l.filter fun x => (key x).isSome).mergeSort fun x y =>
      (o.comparing (key x) (key y)).isLE).Pairwise fun x y =>
        o.comparing (key x) (key y) = .lt ∨ (o.comparing (key x) (key y) = .eq ∧ R x y) := by
    refine (pairwise_mergeSort_of_pairwise ?_ ?_ (hR.filter _)).imp ?_
    · intro x hx y hy z hz
      obtain ⟨k, hk, hkof⟩ := hpresent x hx
      obtain ⟨m, hm, hmof⟩ := hpresent y hy
      obtain ⟨n, hn, hnof⟩ := hpresent z hz
      rw [hk, hm, hn]
      exact isLE_comparing_trans hkof hmof hnof
    · intro x _ y _
      rw [← comparing_swap (key x) (key y)]
      cases o.comparing (key x) (key y) <;> decide
    · rintro x y ⟨hle, htie⟩
      rw [← comparing_swap (key x) (key y)] at htie
      cases hcomparing : o.comparing (key x) (key y) with
      | lt => exact .inl rfl
      | eq => exact .inr ⟨rfl, htie (by rw [hcomparing]; rfl)⟩
      | gt =>
          rw [hcomparing] at hle
          cases hle
  have hmissing : (l.filter fun x => (key x).isNone).Pairwise fun x y =>
      o.comparing (key x) (key y) = .lt ∨ (o.comparing (key x) (key y) = .eq ∧ R x y) := by
    refine (hR.filter _).imp_of_mem ?_
    intro x y hx hy hxy
    rw [Option.isNone_iff_eq_none.mp (List.mem_filter.mp hx).2,
      Option.isNone_iff_eq_none.mp (List.mem_filter.mp hy).2]
    exact .inr ⟨rfl, hxy⟩
  rw [arrange]
  split
  · next hdescending =>
      refine List.pairwise_append.mpr ⟨hordered, hmissing, ?_⟩
      intro x hx y hy
      obtain ⟨k, hk, -⟩ := hpresent x (List.mem_mergeSort.mp hx)
      rw [hk, Option.isNone_iff_eq_none.mp (List.mem_filter.mp hy).2]
      exact .inl (if_pos hdescending)
  · next hascending =>
      refine List.pairwise_append.mpr ⟨hmissing, hordered, ?_⟩
      intro x hx y hy
      obtain ⟨m, hm, -⟩ := hpresent y (List.mem_mergeSort.mp hy)
      rw [hm, Option.isNone_iff_eq_none.mp (List.mem_filter.mp hx).2]
      exact .inl (if_neg hascending)

end SortOrder

end LinkShelf
