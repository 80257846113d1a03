import LinkShelf.Proofs.Url.Spelling

/-!
Removing dot segments as RFC 3986 has it in section 5.2.4: in turns, from an input buffer to the end
of an output buffer. Main statements: the buffers end with the segments that a stack keeps
(`removeDotSegments_slash`), and on which paths `resolveDotSegments` gives the same text
(`resolveDotSegments_eq_removeDotSegments_iff`).
-/

namespace LinkShelf.Url

open Text

/-! ## The two buffers -/

/-- The output without its last segment and the slash in front of that. -/
def withoutLastSegment (output : List Char) : List Char :=
  match cutLast (· == '/') output with
  | some (before, _) => before
  | none => []

/-- One turn: the buffers after the first of the five rules that fits the input. -/
def bufferTurn (input output : List Char) : List Char × List Char :=
  -- A: a dot segment in front of the first slash is dropped.
  if ['.', '.', '/'].isPrefixOf input then (input.drop 3, output)
  else if ['.', '/'].isPrefixOf input then (input.drop 2, output)
  -- B and C: a whole segment after a slash that is a dot segment is replaced by the slash.
  else if ['/', '.', '/'].isPrefixOf input then ('/' :: input.drop 3, output)
  else if input = ['/', '.'] then (['/'], output)
  else if ['/', '.', '.', '/'].isPrefixOf input then
    ('/' :: input.drop 4, withoutLastSegment output)
  else if input = ['/', '.', '.'] then (['/'], withoutLastSegment output)
  -- D: a dot segment that is the whole input is dropped.
  else if input = ['.'] ∨ input = ['.', '.'] then ([], output)
  -- E: the first segment goes to the output, with the slash in front of it if there is one.
  else
    let (segment, more) := (input.drop 1).span (· != '/')
    (more, output ++ input.take 1 ++ segment)

theorem length_bufferTurn_lt {input : List Char} (hinput : input ≠ []) (output : List Char) :
    (bufferTurn input output).1.length < input.length := by
  have hlength : 0 < input.length := List.length_pos_iff.mpr hinput
  have hfits (front : List Char) (hfront : front.isPrefixOf input = true) :
      front.length ≤ input.length := (List.isPrefixOf_iff_prefix.mp hfront).length_le
  have hspan : ((input.drop 1).span (· != '/')).2.length ≤ input.length - 1 := by
    rw [List.span_eq_takeWhile_dropWhile, ← List.length_drop]
    exact (List.dropWhile_suffix _).length_le
  unfold bufferTurn
  split
  · simp only [List.length_drop]
    omega
  split
  · simp only [List.length_drop]
    omega
  split
  · next hfront =>
      have hthree : 3 ≤ input.length := hfits _ hfront
      simp only [List.length_cons, List.length_drop]
      omega
  split
  · next hwhole => simp [hwhole]
  split
  · next hfront =>
      have hfour : 4 ≤ input.length := hfits _ hfront
      simp only [List.length_cons, List.length_drop]
      omega
  split
  · next hwhole => simp [hwhole]
  split
  · simpa using hlength
  · show ((input.drop 1).span (· != '/')).2.length < input.length
    omega

/-- The output after all turns. -/
def removeDotSegmentsFrom (input output : List Char) : List Char :=
  if _hinput : input = [] then output
  else removeDotSegmentsFrom (bufferTurn input output).1 (bufferTurn input output).2
termination_by input.length
decreasing_by exact length_bufferTurn_lt _hinput output

/-- The path without dot segments as the standard has it. -/
def removeDotSegments (path : List Char) : List Char := removeDotSegmentsFrom path []

theorem removeDotSegmentsFrom_nil (output : List Char) :
    removeDotSegmentsFrom [] output = output := by
  rw [removeDotSegmentsFrom, dif_pos rfl]

theorem removeDotSegmentsFrom_of_turn {input output input' output' : List Char}
    (hinput : input ≠ []) (hturn : bufferTurn input output = (input', output')) :
    removeDotSegmentsFrom input output = removeDotSegmentsFrom input' output' := by
  rw [removeDotSegmentsFrom, dif_neg hinput, hturn]

/-! ## Segments after slashes -/

/-- The segments one after the other, each after a slash. -/
def slashed (segs : List (List Char)) : List Char := segs.flatMap ('/' :: ·)

theorem slashed_cons (segment : List Char) (segs : List (List Char)) :
    slashed (segment :: segs) = '/' :: (segment ++ slashed segs) := by
  simp [slashed]

theorem slashed_append (front back : List (List Char)) :
    slashed (front ++ back) = slashed front ++ slashed back := by
  simp [slashed]

theorem slashed_reverse_cons (last : List Char) (kept : List (List Char)) :
    slashed (last :: kept).reverse = slashed kept.reverse ++ '/' :: last := by
  simp [slashed]

theorem slashed_eq_joinWith {segs : List (List Char)} (hsegs : segs ≠ []) :
    slashed segs = '/' :: joinWith ['/'] segs := by
  induction segs with
  | nil => exact absurd rfl hsegs
  | cons segment rest ih =>
      by_cases hrest : rest = []
      · subst hrest
        simp [slashed, joinWith]
      · rw [slashed_cons, ih hrest, joinWith_cons hrest]
        simp

theorem slashed_segments (rest : List Char) : slashed (segments rest) = '/' :: rest := by
  have hsegments : segments rest ≠ [] := pieces_ne_nil _ rest
  rw [slashed_eq_joinWith hsegments, segments, joinWith_pieces]

theorem segments_slashed {segs : List (List Char)} (hsegs : ∀ segment ∈ segs, '/' ∉ segment) :
    segments (slashed segs) = [] :: segs := by
  induction segs with
  | nil => rfl
  | cons segment rest ih =>
      have hsegment : '/' ∉ segment := hsegs segment (by simp)
      have hmore := ih fun other hother => hsegs other (by simp [hother])
      rw [slashed_cons, segments_slash]
      cases rest with
      | nil => simpa [slashed] using segments_of_no_slash hsegment
      | cons next more =>
          rw [slashed_cons, segments_slash] at hmore
          rw [slashed_cons, segments_append, segments_of_no_slash hsegment,
            (List.cons.inj hmore).2]
          rfl

theorem slashed_inj {segs others : List (List Char)} (hsegs : ∀ segment ∈ segs, '/' ∉ segment)
    (hothers : ∀ segment ∈ others, '/' ∉ segment) :
    slashed segs = slashed others ↔ segs = others := by
  refine ⟨fun hsame => ?_, fun hsame => hsame ▸ rfl⟩
  have hsegments := segments_slashed hsegs
  rw [hsame, segments_slashed hothers] at hsegments
  exact (List.cons.inj hsegments).2.symm

theorem withoutLastSegment_slashed {kept : List (List Char)}
    (hkept : ∀ segment ∈ kept, '/' ∉ segment) :
    withoutLastSegment (slashed kept.reverse) = slashed kept.tail.reverse := by
  cases kept with
  | nil => rfl
  | cons last rest =>
      have hcut : cutLast (· == '/') (slashed rest.reverse ++ '/' :: last) =
          some (slashed rest.reverse, last) :=
        cutLast_append (by simp) (beq_of_not_mem (hkept last (by simp)))
      rw [slashed_reverse_cons, withoutLastSegment, hcut]
      rfl

/-! ## Turns over segments -/

theorem bufferTurn_stay (segs : List (List Char)) (output : List Char) :
    bufferTurn (slashed (['.'] :: segs)) output =
      (if segs = [] then ['/'] else slashed segs, output) := by
  cases segs with
  | nil => rfl
  | cons next more => simp [slashed_cons, bufferTurn]

theorem bufferTurn_back (segs : List (List Char)) (output : List Char) :
    bufferTurn (slashed (['.', '.'] :: segs)) output =
      (if segs = [] then ['/'] else slashed segs, withoutLastSegment output) := by
  cases segs with
  | nil => rfl
  | cons next more => simp [slashed_cons, bufferTurn]

/-- A whole segment is known from a text that starts with it and a slash. -/
theorem eq_of_prefix_slash {segment : List Char} {segs : List (List Char)} (name : List Char)
    (hname : '/' ∉ name) (hsegment : '/' ∉ segment)
    (hstarts : name ++ ['/'] <+: segment ++ slashed segs) : segment = name := by
  obtain ⟨after, hafter⟩ := hstarts
  rw [List.append_assoc, List.singleton_append] at hafter
  cases segs with
  | nil =>
      have hmem : '/' ∈ segment := by
        have hslashed : slashed [] = [] := rfl
        rw [hslashed, List.append_nil] at hafter
        simp [← hafter]
      exact absurd hmem hsegment
  | cons next more =>
      have hcut : cutAt '/' (name ++ '/' :: after) = (name, after) := cutAt_append hname
      rw [hafter, slashed_cons, cutAt_append hsegment] at hcut
      exact (Prod.mk.inj hcut).1

theorem eq_of_append_slashed {name segment : List Char} {segs : List (List Char)}
    (hname : '/' ∉ name) (hwhole : segment ++ slashed segs = name) : segment = name := by
  cases segs with
  | nil => simpa [slashed] using hwhole
  | cons next more => simp [← hwhole, slashed_cons] at hname

theorem bufferTurn_move {segment : List Char} (hsegment : '/' ∉ segment)
    (hdot : isDotSegment segment = false) (segs : List (List Char)) (output : List Char) :
    bufferTurn (slashed (segment :: segs)) output = (slashed segs, output ++ '/' :: segment) := by
  obtain ⟨hstay, hback⟩ : segment ≠ ['.'] ∧ segment ≠ ['.', '.'] := by
    simpa [isDotSegment] using hdot
  have hB : ¬ ['.', '/'] <+: segment ++ slashed segs := fun h =>
    hstay (eq_of_prefix_slash ['.'] (by decide) hsegment h)
  have hC : ¬ ['.', '.', '/'] <+: segment ++ slashed segs := fun h =>
    hback (eq_of_prefix_slash ['.', '.'] (by decide) hsegment h)
  have hB' : segment ++ slashed segs ≠ ['.'] := fun h => hstay (eq_of_append_slashed (by decide) h)
  have hC' : segment ++ slashed segs ≠ ['.', '.'] := fun h =>
    hback (eq_of_append_slashed (by decide) h)
  have hspan : (segment ++ slashed segs).span (· != '/') = (segment, slashed segs) := by
    refine span_append (fun c hc => ?_) fun c hc => ?_
    · rw [bne_iff_ne]
      exact fun h => hsegment (h ▸ hc)
    · cases segs with
      | nil => simp [slashed] at hc
      | cons next more =>
          rw [slashed_cons, List.head?_cons, Option.some.injEq] at hc
          simp [← hc]
  rw [List.span_eq_takeWhile_dropWhile, Prod.mk.injEq] at hspan
  rw [slashed_cons, bufferTurn]
  simp [hB, hC, hB', hC', hspan]

/-! ## The stack of the standard -/

/-- The segments kept so far, the last one first, after one more segment. A `..` takes back the
segment before it, also one that is empty. -/
def takeStandard (kept : List (List Char)) (segment : List Char) : List (List Char) :=
  if segment = ['.'] then kept
  else if segment = ['.', '.'] then kept.tail
  else segment :: kept

/-- The segments that the standard keeps, the last one first. -/
def standardSegments (kept segs : List (List Char)) : List (List Char) :=
  segs.foldl takeStandard kept

/-- Whether the last segment is a dot segment. -/
def endsInDot (segs : List (List Char)) : Bool := segs.getLast?.any isDotSegment

/-- The empty segment that a dot segment at the end leaves. -/
def closing (segs : List (List Char)) : List (List Char) := if endsInDot segs then [[]] else []

theorem takeStandard_stay (kept : List (List Char)) : takeStandard kept ['.'] = kept := if_pos rfl

theorem takeStandard_back (kept : List (List Char)) :
    takeStandard kept ['.', '.'] = kept.tail := rfl

theorem takeStandard_of_not_dot {segment : List Char} (hsegment : isDotSegment segment = false)
    (kept : List (List Char)) : takeStandard kept segment = segment :: kept := by
  obtain ⟨hstay, hback⟩ : segment ≠ ['.'] ∧ segment ≠ ['.', '.'] := by
    simpa [isDotSegment] using hsegment
  rw [takeStandard, if_neg hstay, if_neg hback]

theorem mem_takeStandard {kept : List (List Char)} {segment other : List Char}
    (hother : other ∈ takeStandard kept segment) : other ∈ kept ∨ other = segment := by
  rcases segment_cases segment with rfl | rfl | hsegment
  · exact .inl (by rwa [takeStandard_stay] at hother)
  · exact .inl (List.mem_of_mem_tail hother)
  · rw [takeStandard_of_not_dot hsegment, List.mem_cons] at hother
    exact hother.symm

theorem mem_standardSegments {kept segs : List (List Char)} {segment : List Char}
    (hsegment : segment ∈ standardSegments kept segs) : segment ∈ kept ∨ segment ∈ segs :=
  mem_foldl_take mem_takeStandard hsegment

theorem closing_cons (segment next : List Char) (more : List (List Char)) :
    closing (segment :: next :: more) = closing (next :: more) := by
  rw [closing, closing, endsInDot, List.getLast?_cons_cons, endsInDot]

/-- A lone slash goes to the output as an empty segment. -/
theorem removeDotSegmentsFrom_slash (output : List Char) :
    removeDotSegmentsFrom ['/'] output = output ++ ['/'] := by
  have hturn : bufferTurn (slashed [[]]) output = (slashed [], output ++ ['/']) :=
    bufferTurn_move (by simp) (by decide) [] output
  exact (removeDotSegmentsFrom_of_turn (List.cons_ne_nil _ _) hturn).trans
    (removeDotSegmentsFrom_nil _)

/-- What a turn at a segment leaves to do: the segments after it, and a lone slash if it was a dot
segment at the end. -/
theorem removeDotSegmentsFrom_segment {kept segs : List (List Char)} {segment : List Char}
    (hkept : ∀ other ∈ kept, '/' ∉ other) (hsegment : '/' ∉ segment) :
    removeDotSegmentsFrom (slashed (segment :: segs)) (slashed kept.reverse) =
      removeDotSegmentsFrom (if segs = [] then slashed (closing [segment]) else slashed segs)
        (slashed (takeStandard kept segment).reverse) := by
  have hinput : slashed (segment :: segs) ≠ [] := by simp [slashed_cons]
  rcases segment_cases segment with rfl | rfl | hdot
  · exact removeDotSegmentsFrom_of_turn hinput (bufferTurn_stay segs _)
  · have hturn := bufferTurn_back segs (slashed kept.reverse)
    rw [withoutLastSegment_slashed hkept] at hturn
    exact removeDotSegmentsFrom_of_turn hinput hturn
  · have hturn := bufferTurn_move hsegment hdot segs (slashed kept.reverse)
    rw [← slashed_reverse_cons, ← takeStandard_of_not_dot hdot kept] at hturn
    rw [removeDotSegmentsFrom_of_turn hinput hturn]
    cases segs with
    | nil => simp [closing, endsInDot, hdot]
    | cons next more => rfl

theorem removeDotSegmentsFrom_slashed {kept segs : List (List Char)} (hsegs : segs ≠ [])
    (hkept : ∀ segment ∈ kept, '/' ∉ segment) (hslash : ∀ segment ∈ segs, '/' ∉ segment) :
    removeDotSegmentsFrom (slashed segs) (slashed kept.reverse) =
      slashed (closing segs ++ standardSegments kept segs).reverse := by
  induction segs generalizing kept with
  | nil => exact absurd rfl hsegs
  | cons segment rest ih =>
      have hsegment : '/' ∉ segment := hslash segment (by simp)
      rw [removeDotSegmentsFrom_segment hkept hsegment]
      cases rest with
      | nil =>
          rw [if_pos rfl, List.reverse_append, slashed_append]
          cases hdot : isDotSegment segment with
          | false =>
              have hclosing : closing [segment] = [] := by simp [closing, endsInDot, hdot]
              rw [hclosing]
              exact (removeDotSegmentsFrom_nil _).trans (List.append_nil _).symm
          | true =>
              have hclosing : closing [segment] = [[]] := by simp [closing, endsInDot, hdot]
              rw [hclosing]
              exact removeDotSegmentsFrom_slash _
      | cons next more =>
          have htaken : ∀ other ∈ takeStandard kept segment, '/' ∉ other := fun other hother =>
            (mem_takeStandard hother).elim (hkept other) fun h => h ▸ hsegment
          rw [if_neg (by simp), ih (by simp) htaken fun other hother =>
            hslash other (List.mem_cons_of_mem _ hother), closing_cons]
          rfl

theorem not_mem_of_mem_segments {rest segment : List Char} (hsegment : segment ∈ segments rest) :
    '/' ∉ segment := by
  intro hmem
  have hfree : ('/' == '/') = false := not_mem_pieces hsegment '/' hmem
  exact absurd hfree (by decide)

/-- The buffers end with the segments that the stack of the standard keeps. -/
theorem removeDotSegments_slash (rest : List Char) :
    removeDotSegments ('/' :: rest) =
      slashed (closing (segments rest) ++ standardSegments [] (segments rest)).reverse := by
  have hsegments : segments rest ≠ [] := pieces_ne_nil _ rest
  have hempty : ∀ segment ∈ ([] : List (List Char)), '/' ∉ segment := by simp
  rw [removeDotSegments, ← slashed_segments]
  exact removeDotSegmentsFrom_slashed hsegments hempty fun _ => not_mem_of_mem_segments

/-! ## Where the two stacks differ -/

/-- Whether a `..` meets an empty segment, which the standard takes back and `takeSegment` keeps. -/
def MeetsEmpty (kept segs : List (List Char)) : Prop :=
  ∃ before after, segs = before ++ ['.', '.'] :: after ∧
    (keptSegments kept before).head? = some []

/-- The first stack has an empty segment below which the second one is no higher. -/
def IsHigher (kept others : List (List Char)) : Prop :=
  ∃ top below rest, kept = top ++ [] :: below ∧ others = top ++ rest ∧
    rest.length ≤ below.length

theorem IsHigher.length_lt {kept others : List (List Char)} (h : IsHigher kept others) :
    others.length < kept.length := by
  obtain ⟨top, below, rest, rfl, rfl, hlength⟩ := h
  simp only [List.length_append, List.length_cons]
  omega

theorem IsHigher.ne_nil {kept others : List (List Char)} (h : IsHigher kept others) : kept ≠ [] :=
  List.ne_nil_of_length_pos (Nat.zero_lt_of_lt h.length_lt)

theorem IsHigher.take {kept others : List (List Char)} (h : IsHigher kept others)
    (segment : List Char) :
    IsHigher (takeSegment kept segment) (takeStandard others segment) := by
  obtain ⟨top, below, rest, rfl, rfl, hlength⟩ := h
  rcases segment_cases segment with rfl | rfl | hsegment
  · rw [takeSegment_stay, takeStandard_stay]
    exact ⟨top, below, rest, rfl, rfl, hlength⟩
  · rw [takeStandard_back]
    cases top with
    | nil => exact ⟨[], below, rest.tail, rfl, rfl, by rw [List.length_tail]; omega⟩
    | cons last top =>
        rw [List.cons_append, takeSegment_back_cons]
        cases last with
        | nil =>
            -- The first stack stays at this empty segment too, which is now the one to look at.
            refine ⟨[], top ++ [] :: below, top ++ rest, rfl, rfl, ?_⟩
            simp only [List.length_append, List.length_cons]
            omega
        | cons c cs => exact ⟨top, below, rest, rfl, rfl, hlength⟩
  · rw [takeSegment_of_not_dot hsegment, takeStandard_of_not_dot hsegment]
    exact ⟨segment :: top, below, rest, rfl, rfl, hlength⟩

theorem IsHigher.foldl {kept others : List (List Char)} (h : IsHigher kept others)
    (segs : List (List Char)) :
    IsHigher (keptSegments kept segs) (standardSegments others segs) := by
  induction segs generalizing kept others with
  | nil => exact h
  | cons segment rest ih => exact ih (h.take segment)

theorem meetsEmpty_cons {kept segs : List (List Char)} {segment : List Char} :
    MeetsEmpty kept (segment :: segs) ↔
      (segment = ['.', '.'] ∧ kept.head? = some []) ∨
        MeetsEmpty (takeSegment kept segment) segs := by
  constructor
  · rintro ⟨before, after, hsegs, hempty⟩
    cases before with
    | nil =>
        obtain ⟨rfl, rfl⟩ := List.cons.inj hsegs
        exact .inl ⟨rfl, hempty⟩
    | cons first before =>
        obtain ⟨rfl, rfl⟩ := List.cons.inj hsegs
        exact .inr ⟨before, after, rfl, hempty⟩
  · rintro (⟨rfl, hempty⟩ | ⟨before, after, rfl, hempty⟩)
    · exact ⟨[], segs, rfl, hempty⟩
    · exact ⟨segment :: before, after, rfl, hempty⟩

theorem takeSegment_eq_takeStandard {kept : List (List Char)} {segment : List Char}
    (h : ¬ (segment = ['.', '.'] ∧ kept.head? = some [])) :
    takeSegment kept segment = takeStandard kept segment := by
  rcases segment_cases segment with rfl | rfl | hsegment
  · rw [takeSegment_stay, takeStandard_stay]
  · cases kept with
    | nil => rfl
    | cons last rest =>
        have hlast : last.isEmpty = false := by simpa using h
        rw [takeSegment_back_cons, hlast]
        rfl
  · rw [takeSegment_of_not_dot hsegment, takeStandard_of_not_dot hsegment]

/-- The stacks are the same up to the first `..` that meets an empty segment, and differ from then
on. -/
theorem stacks_cases (kept segs : List (List Char)) :
    (¬ MeetsEmpty kept segs ∧ keptSegments kept segs = standardSegments kept segs) ∨
      (MeetsEmpty kept segs ∧ IsHigher (keptSegments kept segs) (standardSegments kept segs)) := by
  induction segs generalizing kept with
  | nil =>
      refine .inl ⟨?_, rfl⟩
      rintro ⟨before, after, hsegs, -⟩
      simp at hsegs
  | cons segment rest ih =>
      by_cases hmeet : segment = ['.', '.'] ∧ kept.head? = some []
      · refine .inr ⟨meetsEmpty_cons.mpr (.inl hmeet), ?_⟩
        obtain ⟨rfl, hempty⟩ := hmeet
        obtain ⟨below, rfl⟩ := List.head?_eq_some_iff.mp hempty
        have hback : IsHigher (takeSegment ([] :: below) ['.', '.'])
            (takeStandard ([] :: below) ['.', '.']) :=
          ⟨[], below, below, rfl, rfl, le_rfl⟩
        exact hback.foldl rest
      · rw [meetsEmpty_cons, or_iff_right hmeet, keptSegments, standardSegments, List.foldl_cons,
          List.foldl_cons, ← takeSegment_eq_takeStandard hmeet]
        exact ih (takeSegment kept segment)

/-! ## Where the two paths agree -/

/-- The path of a stack: a slash alone if nothing is kept. -/
def rooted (kept : List (List Char)) : List (List Char) := if kept = [] then [[]] else kept

theorem resolveDotSegments_slash_eq_slashed (rest : List Char) :
    resolveDotSegments ('/' :: rest) =
      slashed (rooted (keptSegments [] (segments rest))).reverse := by
  rw [resolveDotSegments_slash, rooted]
  split
  · next hnone => rw [hnone]; rfl
  · next hsome => rw [slashed_eq_joinWith (by simpa using hsome)]

theorem not_mem_of_mem_rooted {rest segment : List Char}
    (hsegment : segment ∈ rooted (keptSegments [] (segments rest))) : '/' ∉ segment := by
  rw [rooted] at hsegment
  split at hsegment
  · simp_all
  · rcases mem_keptSegments hsegment with hkept | hmem
    · simp at hkept
    · exact not_mem_of_mem_segments hmem

theorem not_mem_of_mem_standard {rest segment : List Char}
    (hsegment : segment ∈ closing (segments rest) ++ standardSegments [] (segments rest)) :
    '/' ∉ segment := by
  rcases List.mem_append.mp hsegment with hclosing | hstandard
  · rw [closing] at hclosing
    split at hclosing <;> simp_all
  · rcases mem_standardSegments hstandard with hkept | hmem
    · simp at hkept
    · exact not_mem_of_mem_segments hmem

/-- The two paths are the same if the two stacks are. -/
theorem resolveDotSegments_eq_removeDotSegments_iff_stacks (rest : List Char) :
    resolveDotSegments ('/' :: rest) = removeDotSegments ('/' :: rest) ↔
      rooted (keptSegments [] (segments rest)) =
        closing (segments rest) ++ standardSegments [] (segments rest) := by
  rw [resolveDotSegments_slash_eq_slashed, removeDotSegments_slash,
    slashed_inj (fun segment hsegment => not_mem_of_mem_rooted (List.mem_reverse.mp hsegment))
      (fun segment hsegment => not_mem_of_mem_standard (List.mem_reverse.mp hsegment)),
    List.reverse_inj]

/-- A stack is not empty after a last segment that is no dot segment. -/
theorem standardSegments_ne_nil {segs : List (List Char)} (hsegs : segs ≠ [])
    (hends : endsInDot segs = false) (kept : List (List Char)) :
    standardSegments kept segs ≠ [] := by
  obtain ⟨front, last, rfl⟩ : ∃ front last, segs = front ++ [last] :=
    ⟨_, _, (List.dropLast_concat_getLast hsegs).symm⟩
  have hlast : isDotSegment last = false := by simpa [endsInDot] using hends
  rw [standardSegments, List.foldl_append, List.foldl_cons, List.foldl_nil,
    takeStandard_of_not_dot hlast]
  exact List.cons_ne_nil _ _

/-- A path that starts with a slash comes out as the standard has it exactly in these cases: it does
not end in a dot segment and no `..` meets an empty segment; or it ends in one, and nothing is kept
of it or one empty segment more than the standard keeps, which makes up for the missing slash. -/
theorem resolveDotSegments_eq_removeDotSegments_iff (rest : List Char) :
    resolveDotSegments ('/' :: rest) = removeDotSegments ('/' :: rest) ↔
      (endsInDot (segments rest) = false ∧ ¬ MeetsEmpty [] (segments rest)) ∨
      (endsInDot (segments rest) = true ∧ (keptSegments [] (segments rest) = [] ∨
        keptSegments [] (segments rest) = [] :: standardSegments [] (segments rest))) := by
  have hsegments : segments rest ≠ [] := pieces_ne_nil _ rest
  rw [resolveDotSegments_eq_removeDotSegments_iff_stacks]
  generalize segments rest = segs at hsegments ⊢
  have hstacks := stacks_cases [] segs
  cases hends : endsInDot segs with
  | false =>
      have hclosing : closing segs = [] := by simp [closing, hends]
      have hstandard := standardSegments_ne_nil hsegments hends []
      rw [hclosing, List.nil_append]
      rcases hstacks with ⟨hmeets, hsame⟩ | ⟨hmeets, hhigher⟩
      · rw [rooted, hsame, if_neg hstandard]
        simp [hmeets]
      · have hne : keptSegments [] segs ≠ standardSegments [] segs := fun hsame =>
          absurd (congrArg List.length hsame) (Nat.ne_of_gt hhigher.length_lt)
        rw [rooted, if_neg hhigher.ne_nil]
        simp [hmeets, hne]
  | true =>
      have hclosing : closing segs = [[]] := by simp [closing, hends]
      rw [hclosing, List.singleton_append, rooted]
      rcases hstacks with ⟨-, hsame⟩ | ⟨-, hhigher⟩
      · by_cases hkept : keptSegments [] segs = []
        · simp [hkept, ← hsame]
        · simp [hkept]
      · simp [hhigher.ne_nil]

/-- A dot segment at the end leaves no slash, where the standard leaves one. -/
theorem resolveDotSegments_ne_of_stayAtEnd :
    resolveDotSegments ['/', 'a', '/', '.'] ≠ removeDotSegments ['/', 'a', '/', '.'] := by
  rw [removeDotSegments_slash]
  decide

end LinkShelf.Url
