import LinkShelf.Proofs.Url.RemoveDotSegments

/-!
What is left of a path when its dot segments are removed. Main statement: no dot segment is left, a
slash at the start stays, removing them once more changes nothing, and the segments that are left
are some of those of the path, in their order (`resolveDotSegments_dotFree`).
-/

namespace LinkShelf.Url

open Text

variable {path : List Char} {segment : List Char} {kept segs : List (List Char)}

/-! ## Segments on the stack -/

theorem not_dot_of_mem_takeSegment (hkept : ∀ other ∈ kept, isDotSegment other = false)
    {other : List Char} (hother : other ∈ takeSegment kept segment) :
    isDotSegment other = false := by
  rcases segment_cases segment with rfl | rfl | hsegment
  · rw [takeSegment_stay] at hother
    exact hkept other hother
  · cases kept with
    | nil => cases hother
    | cons last rest =>
        rw [takeSegment_back_cons] at hother
        split at hother
        · exact hkept other hother
        · exact hkept other (List.mem_cons_of_mem last hother)
  · rw [takeSegment_of_not_dot hsegment] at hother
    rcases List.mem_cons.mp hother with rfl | hother
    · exact hsegment
    · exact hkept other hother

theorem not_dot_of_mem_keptSegments (hkept : ∀ other ∈ kept, isDotSegment other = false) :
    ∀ other ∈ keptSegments kept segs, isDotSegment other = false := by
  induction segs generalizing kept with
  | nil => exact hkept
  | cons first rest ih => exact ih fun other => not_dot_of_mem_takeSegment hkept

/-- A segment more puts itself on the stack at most, where it stands behind the others. -/
theorem reverse_takeSegment_sublist (kept : List (List Char)) (segment : List Char) :
    (takeSegment kept segment).reverse.Sublist (kept.reverse ++ [segment]) := by
  rcases segment_cases segment with rfl | rfl | hsegment
  · rw [takeSegment_stay]
    exact List.sublist_append_left _ _
  · cases kept with
    | nil => exact List.nil_sublist _
    | cons last rest =>
        rw [takeSegment_back_cons]
        split
        · exact List.sublist_append_left _ _
        · rw [List.reverse_cons, List.append_assoc]
          exact List.sublist_append_left _ _
  · simp only [takeSegment_of_not_dot hsegment, List.reverse_cons, List.Sublist.refl]

theorem reverse_keptSegments_sublist (kept segs : List (List Char)) :
    (keptSegments kept segs).reverse.Sublist (kept.reverse ++ segs) := by
  induction segs generalizing kept with
  | nil => exact List.sublist_append_left _ _
  | cons segment rest ih =>
      have hrest : (keptSegments kept (segment :: rest)).reverse.Sublist
          ((takeSegment kept segment).reverse ++ rest) := ih (takeSegment kept segment)
      have hfirst := (reverse_takeSegment_sublist kept segment).append_right rest
      rw [List.append_assoc, List.singleton_append] at hfirst
      exact hrest.trans hfirst

/-! ## Segments of the path that is left -/

theorem segments_joinWith (hsegs : segs ≠ []) (hslash : ∀ segment ∈ segs, '/' ∉ segment) :
    segments (joinWith ['/'] segs) = segs := by
  have hslashed := segments_slashed hslash
  rw [slashed_eq_joinWith hsegs, segments_slash] at hslashed
  exact (List.cons.inj hslashed).2

theorem resolveDotSegments_of_not_slash (hpath : path.head? ≠ some '/') :
    resolveDotSegments path = joinWith ['/'] (keptSegments [] (segments path)).reverse := by
  simp only [resolveDotSegments, keptSegments, segments]
  rw [if_neg (by simp [hpath])]

/-- The segments of the path that is left are those on the stack, unless that path is empty or a
slash alone. -/
theorem segments_resolveDotSegments (path : List Char) :
    resolveDotSegments path = [] ∨ resolveDotSegments path = ['/'] ∨
      segments (resolveDotSegments path) = (keptSegments [] (segments path)).reverse := by
  have hslash : ∀ segment ∈ (keptSegments [] (segments path)).reverse, '/' ∉ segment := by
    intro segment hsegment
    rcases mem_keptSegments (List.mem_reverse.mp hsegment) with hkept | hmem
    · cases hkept
    · exact not_mem_of_mem_segments hmem
  by_cases hstart : path.head? = some '/'
  · obtain ⟨rest, rfl⟩ := List.head?_eq_some_iff.mp hstart
    have hkept : (keptSegments [] (segments ('/' :: rest))).reverse =
        [] :: (keptSegments [] (segments rest)).reverse := by
      rw [keptSegments_slash, List.reverse_append]
      rfl
    rw [hkept] at hslash ⊢
    rw [resolveDotSegments_slash]
    by_cases hnone : (keptSegments [] (segments rest)).reverse = []
    · rw [hnone]
      exact .inr (.inl rfl)
    · have hjoin := segments_joinWith (List.cons_ne_nil _ _) hslash
      rw [joinWith_cons hnone] at hjoin
      exact .inr (.inr hjoin)
  · rw [resolveDotSegments_of_not_slash hstart]
    by_cases hnone : (keptSegments [] (segments path)).reverse = []
    · rw [hnone]
      exact .inl rfl
    · exact .inr (.inr (segments_joinWith hnone hslash))

/-- A path without dot segments is left as it is. -/
theorem resolveDotSegments_eq_self
    (hpath : ∀ segment ∈ segments path, isDotSegment segment = false) :
    resolveDotSegments path = path := by
  have hjoin := joinWith_kept_of_no_dot hpath
  rw [keptSegments, segments] at hjoin
  simp only [resolveDotSegments, hjoin]
  rw [if_neg (by simp)]

theorem not_dot_of_mem_segments_resolve :
    ∀ segment ∈ segments (resolveDotSegments path), isDotSegment segment = false := by
  rcases segments_resolveDotSegments path with hempty | hroot | hsegments
  · rw [hempty]
    decide
  · rw [hroot]
    decide
  · intro segment hsegment
    rw [hsegments, List.mem_reverse] at hsegment
    exact not_dot_of_mem_keptSegments (by simp) segment hsegment

theorem head?_resolveDotSegments (hpath : path.head? = some '/') :
    (resolveDotSegments path).head? = some '/' := by
  obtain ⟨rest, rfl⟩ := List.head?_eq_some_iff.mp hpath
  rw [resolveDotSegments_slash, List.head?_cons]

theorem segments_resolve_sublist :
    resolveDotSegments path = [] ∨ resolveDotSegments path = ['/'] ∨
      (segments (resolveDotSegments path)).Sublist (segments path) := by
  refine (segments_resolveDotSegments path).imp_right (Or.imp_right fun hsegments => ?_)
  rw [hsegments]
  exact reverse_keptSegments_sublist [] (segments path)

/-- Removing dot segments leaves none; a slash at the start stays; removing them from what is left
changes nothing; and what is left is taken from the segments of the path, in their order and each
once: all segments that are not empty, and the empty ones too where the path that is left is not
itself empty or a slash alone. -/
theorem resolveDotSegments_dotFree (path : List Char) :
    (∀ segment ∈ segments (resolveDotSegments path), segment ≠ ['.'] ∧ segment ≠ ['.', '.']) ∧
    (path.head? = some '/' → (resolveDotSegments path).head? = some '/') ∧
    resolveDotSegments (resolveDotSegments path) = resolveDotSegments path ∧
    ((segments (resolveDotSegments path)).filter (· ≠ [])).Sublist
      ((segments path).filter (· ≠ [])) ∧
    (resolveDotSegments path = [] ∨ resolveDotSegments path = ['/'] ∨
      (segments (resolveDotSegments path)).Sublist (segments path)) := by
  refine ⟨?_, head?_resolveDotSegments, resolveDotSegments_eq_self not_dot_of_mem_segments_resolve,
    ?_, segments_resolve_sublist⟩
  · intro segment hsegment
    have hdot := not_dot_of_mem_segments_resolve segment hsegment
    rwa [isDotSegment, Bool.or_eq_false_iff, beq_eq_false_iff_ne, beq_eq_false_iff_ne] at hdot
  · rcases segments_resolve_sublist with hempty | hroot | hsublist
    · rw [hempty]
      exact List.nil_sublist _
    · rw [hroot]
      exact List.nil_sublist _
    · exact hsublist.filter _

/-- A path that climbs above the root starts there all the same. -/
theorem resolveDotSegments_dotFree_climbingPath :
    ['/', '.', '.', '/', 'a', '/', '.'].head? = some '/' ∧
      (resolveDotSegments ['/', '.', '.', '/', 'a', '/', '.']).head? = some '/' :=
  ⟨rfl, (resolveDotSegments_dotFree _).2.1 rfl⟩

end LinkShelf.Url
