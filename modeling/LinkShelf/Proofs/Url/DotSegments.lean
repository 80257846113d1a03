import LinkShelf.Locator
import LinkShelf.Proofs.Url.Escapes
import Mathlib.Algebra.Ring.Nat

/-!
Paths without dot segments. Main statements: removing dot segments never makes a path longer, and it
changes nothing exactly where there are none (`settledPath_eq_self_iff`).
-/

namespace LinkShelf.Url

open Text

/-- The segments of a path. -/
def segments (path : List Char) : List (List Char) := pieces (· == '/') path

/-- Whether a segment stands for a place in the path. -/
def isDotSegment (segment : List Char) : Bool := segment == ['.'] || segment == ['.', '.']

/-- The segments that are kept, the last one first. -/
def keptSegments (kept segs : List (List Char)) : List (List Char) := segs.foldl takeSegment kept

theorem isDotSegment_iff {segment : List Char} :
    isDotSegment segment = true ↔ segment = ['.'] ∨ segment = ['.', '.'] := by
  simp [isDotSegment]

theorem takeSegment_stay (kept : List (List Char)) : takeSegment kept ['.'] = kept := by
  unfold takeSegment
  exact if_pos rfl

theorem takeSegment_back_nil : takeSegment [] ['.', '.'] = [] := rfl

theorem takeSegment_back_cons (last : List Char) (rest : List (List Char)) :
    takeSegment (last :: rest) ['.', '.'] = if last.isEmpty then last :: rest else rest := rfl

theorem takeSegment_of_not_dot {segment : List Char} (hsegment : isDotSegment segment = false)
    (kept : List (List Char)) : takeSegment kept segment = segment :: kept := by
  have hdot := mt isDotSegment_iff.mpr (Bool.eq_false_iff.mp hsegment)
  rw [not_or] at hdot
  unfold takeSegment
  rw [if_neg hdot.1, if_neg hdot.2]

theorem segment_cases (segment : List Char) :
    segment = ['.'] ∨ segment = ['.', '.'] ∨ isDotSegment segment = false := by
  cases hsegment : isDotSegment segment with
  | false => exact .inr (.inr rfl)
  | true => exact (isDotSegment_iff.mp hsegment).imp_right .inl

/-- A segment that is empty at the start is never taken back. -/
theorem takeSegment_append_nil (kept : List (List Char)) (segment : List Char) :
    takeSegment (kept ++ [[]]) segment = takeSegment kept segment ++ [[]] := by
  rcases segment_cases segment with rfl | rfl | hsegment
  · rw [takeSegment_stay, takeSegment_stay]
  · cases kept with
    | nil => rfl
    | cons last rest =>
        rw [List.cons_append, takeSegment_back_cons, takeSegment_back_cons]
        split <;> rfl
  · rw [takeSegment_of_not_dot hsegment, takeSegment_of_not_dot hsegment, List.cons_append]

theorem keptSegments_append_nil (kept segs : List (List Char)) :
    keptSegments (kept ++ [[]]) segs = keptSegments kept segs ++ [[]] := by
  induction segs generalizing kept with
  | nil => rfl
  | cons segment rest ih =>
      rw [keptSegments, List.foldl_cons, takeSegment_append_nil]
      exact ih _

theorem segments_slash (rest : List Char) : segments ('/' :: rest) = [] :: segments rest := rfl

theorem joinWith_cons {sep piece : List Char} {rest : List (List Char)} (hrest : rest ≠ []) :
    joinWith sep (piece :: rest) = piece ++ sep ++ joinWith sep rest := by
  cases rest with
  | nil => exact absurd rfl hrest
  | cons next more => rfl

/-- A slash at the start leaves an empty segment below the others. -/
theorem keptSegments_slash (rest : List Char) :
    keptSegments [] (segments ('/' :: rest)) = keptSegments [] (segments rest) ++ [[]] := by
  rw [segments_slash, keptSegments, List.foldl_cons]
  exact keptSegments_append_nil [] (segments rest)

/-- A path that starts with a slash is resolved segment by segment after the slash. -/
theorem resolveDotSegments_slash (rest : List Char) :
    resolveDotSegments ('/' :: rest) =
      '/' :: joinWith ['/'] (keptSegments [] (segments rest)).reverse := by
  have hkept := keptSegments_slash rest
  rw [keptSegments, segments] at hkept
  rw [resolveDotSegments, hkept, List.reverse_append]
  cases hmore : (keptSegments [] (segments rest)).reverse with
  | nil => rfl
  | cons first more =>
      simp only [List.reverse_cons, List.reverse_nil, List.nil_append, List.singleton_append]
      rw [joinWith_cons (by simp)]
      simp

theorem decodeUnreserved_slash (rest : List Char) :
    decodeUnreserved ('/' :: rest) = '/' :: decodeUnreserved rest :=
  decodeUnreserved_cons (by decide) rest

theorem settledPath_slash (rest : List Char) :
    settledPath ('/' :: rest) =
      '/' :: joinWith ['/'] (keptSegments [] (segments (decodeUnreserved rest))).reverse := by
  rw [settledPath, decodeUnreserved_slash, resolveDotSegments_slash]

theorem settledPath_nil : settledPath [] = ['/'] := by decide

/-! ## Lengths -/

/-- The length of the segments with a slash for each. -/
def weight (segs : List (List Char)) : Nat := (segs.map fun segment => segment.length + 1).sum

theorem length_joinWith_add_one {segs : List (List Char)} (hsegs : segs ≠ []) :
    (joinWith ['/'] segs).length + 1 = weight segs := by
  induction segs with
  | nil => exact absurd rfl hsegs
  | cons segment rest ih =>
      by_cases hrest : rest = []
      · subst hrest
        simp [joinWith, weight]
      · have hmore := ih hrest
        rw [joinWith_cons hrest]
        simp only [weight, List.length_append, List.length_cons, List.map_cons,
          List.sum_cons] at hmore ⊢
        simp only [List.length_nil]
        omega

theorem weight_segments (path : List Char) : weight (segments path) = path.length + 1 := by
  have hsegments : segments path ≠ [] := pieces_ne_nil _ path
  rw [← length_joinWith_add_one hsegments, segments, joinWith_pieces]

theorem weight_takeSegment_le (kept : List (List Char)) (segment : List Char) :
    weight (takeSegment kept segment) + (if isDotSegment segment then 1 else 0) ≤
      weight kept + (segment.length + 1) := by
  rcases segment_cases segment with rfl | rfl | hsegment
  · simp [takeSegment_stay, isDotSegment]
  · cases kept with
    | nil => simp [takeSegment_back_nil, weight, isDotSegment]
    | cons last rest =>
        rw [takeSegment_back_cons]
        split
        · simp [isDotSegment]
        · simp only [weight, isDotSegment, List.map_cons, List.sum_cons, List.length_cons]
          simp
          omega
  · rw [takeSegment_of_not_dot hsegment, hsegment]
    simp only [weight, List.map_cons, List.sum_cons]
    simp
    omega

theorem weight_keptSegments_le (kept segs : List (List Char)) :
    weight (keptSegments kept segs) + (segs.filter isDotSegment).length ≤
      weight kept + weight segs := by
  induction segs generalizing kept with
  | nil => simp [keptSegments, weight]
  | cons segment rest ih =>
      have hfirst := weight_takeSegment_le kept segment
      have hrest := ih (takeSegment kept segment)
      simp only [keptSegments, List.foldl_cons, weight, List.map_cons, List.sum_cons,
        List.filter_cons] at hfirst hrest ⊢
      split at hfirst
      · next hdot =>
          rw [if_pos hdot, List.length_cons]
          omega
      · next hdot =>
          rw [if_neg hdot]
          omega

theorem two_mul_dots_le_weight (segs : List (List Char)) :
    2 * (segs.filter isDotSegment).length ≤ weight segs := by
  induction segs with
  | nil => simp
  | cons segment rest ih =>
      simp only [weight, List.map_cons, List.sum_cons] at ih ⊢
      rcases segment_cases segment with rfl | rfl | hsegment
      · simp [isDotSegment] at ih ⊢
        omega
      · simp [isDotSegment] at ih ⊢
        omega
      · rw [List.filter_cons_of_neg (by simp [hsegment])]
        omega

/-- Removing dot segments makes a path shorter where there are any. -/
theorem length_join_kept_add (path : List Char) :
    (joinWith ['/'] (keptSegments [] (segments path)).reverse).length +
      ((segments path).filter isDotSegment).length ≤ path.length := by
  have hweight := weight_keptSegments_le [] (segments path)
  have hreverse : weight (keptSegments [] (segments path)).reverse =
      weight (keptSegments [] (segments path)) := by
    simp [weight, List.sum_reverse]
  rw [weight_segments] at hweight
  by_cases hkept : (keptSegments [] (segments path)).reverse = []
  · have hdots := two_mul_dots_le_weight (segments path)
    rw [weight_segments] at hdots
    rw [hkept, joinWith, List.length_nil]
    omega
  · have hlength := length_joinWith_add_one hkept
    have hempty : weight [] = 0 := rfl
    omega

theorem keptSegments_of_no_dot {segs : List (List Char)} (kept : List (List Char))
    (hsegs : ∀ segment ∈ segs, isDotSegment segment = false) :
    keptSegments kept segs = segs.reverse ++ kept := by
  induction segs generalizing kept with
  | nil => rfl
  | cons segment rest ih =>
      rw [keptSegments, List.foldl_cons, takeSegment_of_not_dot (hsegs segment (by simp))]
      have hrest := ih (segment :: kept) fun other hother => hsegs other (by simp [hother])
      rw [keptSegments] at hrest
      rw [hrest]
      simp

theorem joinWith_kept_of_no_dot {path : List Char}
    (hpath : ∀ segment ∈ segments path, isDotSegment segment = false) :
    joinWith ['/'] (keptSegments [] (segments path)).reverse = path := by
  rw [keptSegments_of_no_dot [] hpath, List.append_nil, List.reverse_reverse, segments,
    joinWith_pieces]

theorem length_settledPath_slash_le (rest : List Char) :
    (settledPath ('/' :: rest)).length ≤ rest.length + 1 := by
  have hjoin := length_join_kept_add (decodeUnreserved rest)
  have hdecode := length_decodeUnreserved_le rest
  rw [settledPath_slash, List.length_cons]
  omega

/-- A path is settled exactly if all its escapes are and it has no dot segments. -/
theorem settledPath_eq_self_iff {rest : List Char} :
    settledPath ('/' :: rest) = '/' :: rest ↔ areEscapesSettled rest = true ∧
      ∀ segment ∈ segments rest, isDotSegment segment = false := by
  rw [settledPath_slash, List.cons.injEq, ← decodeUnreserved_eq_self_iff]
  constructor
  · rintro ⟨-, hsame⟩
    have hlength := length_join_kept_add (decodeUnreserved rest)
    have hdecode := length_decodeUnreserved_le rest
    rw [hsame] at hlength
    have hnone : (segments (decodeUnreserved rest)).filter isDotSegment = [] :=
      List.eq_nil_of_length_eq_zero (by omega)
    have hplain : ∀ segment ∈ segments (decodeUnreserved rest), isDotSegment segment = false :=
      fun segment hsegment => by simpa using List.filter_eq_nil_iff.mp hnone segment hsegment
    have hself := (joinWith_kept_of_no_dot hplain).symm.trans hsame
    exact ⟨hself, hself ▸ hplain⟩
  · rintro ⟨hdecode, hplain⟩
    rw [hdecode]
    exact ⟨rfl, joinWith_kept_of_no_dot hplain⟩

/-! ## Characters -/

theorem mem_joinWith {α : Type} {sep : List α} {pieces : List (List α)} {d : α}
    (hd : d ∈ joinWith sep pieces) : d ∈ sep ∨ ∃ piece ∈ pieces, d ∈ piece := by
  induction pieces with
  | nil => simp [joinWith] at hd
  | cons piece rest ih =>
      by_cases hrest : rest = []
      · subst hrest
        exact .inr ⟨piece, by simp, hd⟩
      · obtain ⟨next, more, rfl⟩ := List.exists_cons_of_ne_nil hrest
        rw [joinWith, List.mem_append, List.mem_append] at hd
        rcases hd with (hd | hd) | hd
        · exact .inr ⟨piece, by simp, hd⟩
        · exact .inl hd
        · refine (ih hd).imp_right ?_
          rintro ⟨other, hother, hmem⟩
          exact ⟨other, List.mem_cons_of_mem piece hother, hmem⟩

theorem mem_of_mem_segments {path segment : List Char} {d : Char}
    (hsegment : segment ∈ segments path)
    (hd : d ∈ segment) : d ∈ path := by
  induction path generalizing segment with
  | nil => simp_all [segments, pieces]
  | cons c rest ih =>
      by_cases hc : c = '/'
      · subst hc
        rw [segments_slash, List.mem_cons] at hsegment
        rcases hsegment with rfl | hsegment
        · simp at hd
        · simp [ih hsegment hd]
      · obtain ⟨first, more, hrest, hcons⟩ := pieces_cons_of_neg (p := (· == '/')) (c := c)
          (by simpa using hc) rest
        rw [segments, hcons, List.mem_cons] at hsegment
        rcases hsegment with rfl | hsegment
        · rcases List.mem_cons.mp hd with rfl | hd
          · simp
          · have hfirst : first ∈ segments rest := by rw [segments, hrest]; simp
            simp [ih hfirst hd]
        · have hmore : segment ∈ segments rest := by rw [segments, hrest]; simp [hsegment]
          simp [ih hmore hd]

theorem mem_takeSegment {kept : List (List Char)} {segment other : List Char}
    (hother : other ∈ takeSegment kept segment) : other ∈ kept ∨ other = segment := by
  rcases segment_cases segment with rfl | rfl | hsegment
  · exact .inl (by rwa [takeSegment_stay] at hother)
  · cases kept with
    | nil => simp [takeSegment_back_nil] at hother
    | cons last rest =>
        rw [takeSegment_back_cons] at hother
        split at hother
        · exact .inl hother
        · exact .inl (List.mem_cons_of_mem _ hother)
  · rw [takeSegment_of_not_dot hsegment, List.mem_cons] at hother
    exact hother.symm

/-- Only segments of the path are on a stack of segments if each step puts on no others. -/
theorem mem_foldl_take {take : List (List Char) → List Char → List (List Char)}
    (htake : ∀ {kept segment other}, other ∈ take kept segment → other ∈ kept ∨ other = segment)
    {kept segs : List (List Char)} {segment : List Char}
    (hsegment : segment ∈ segs.foldl take kept) : segment ∈ kept ∨ segment ∈ segs := by
  induction segs generalizing kept with
  | nil => exact .inl hsegment
  | cons first rest ih =>
      rcases ih hsegment with hmem | hmem
      · exact (htake hmem).imp_right fun h => by simp [h]
      · exact .inr (by simp [hmem])

theorem mem_keptSegments {kept segs : List (List Char)} {segment : List Char}
    (hsegment : segment ∈ keptSegments kept segs) : segment ∈ kept ∨ segment ∈ segs :=
  mem_foldl_take mem_takeSegment hsegment

theorem mem_settledPath_slash {rest : List Char} {d : Char} (hd : d ∈ settledPath ('/' :: rest)) :
    d = '/' ∨ d ∈ rest ∨ isUnreserved d = true := by
  rw [settledPath_slash, List.mem_cons] at hd
  rcases hd with rfl | hd
  · exact .inl rfl
  · rcases mem_joinWith hd with hd | ⟨segment, hsegment, hd⟩
    · exact .inl (List.mem_singleton.mp hd)
    · rcases mem_keptSegments (List.mem_reverse.mp hsegment) with hkept | hkept
      · simp at hkept
      · exact .inr (mem_decodeUnreserved (mem_of_mem_segments hkept hd))

end LinkShelf.Url
