import LinkShelf.Locator
import LinkShelf.Proofs.Outcome
import LinkShelf.Proofs.Text.Lower
import LinkShelf.Proofs.Text.Pieces
import Mathlib.Data.List.TakeDrop
import Mathlib.Data.List.TakeWhile

/-!
Web addresses on the page: the scheme, and after it the authority, the path, the query and the
fragment with the delimiters in front of them. Main statements: an address is taken apart as it is
laid out (`split_web`, `layout_text`).
-/

namespace LinkShelf.Url

open Text

/-- What follows the scheme of a web address, with the parameters still in the path. -/
structure Layout where
  authority : List Char
  path : List Char
  query : List Char
  fragment : List Char

/-- A part with the delimiter in front of it, or nothing for an empty one. -/
def delimited (c : Char) (part : List Char) : List Char := if part.isEmpty then [] else c :: part

/-- The text that is laid out. -/
def Layout.text (L : Layout) : List Char :=
  L.authority ++ L.path ++ delimited '?' L.query ++ delimited '#' L.fragment

/-- The layout of a text. -/
def layout (cs : List Char) : Layout :=
  let (authority, rest) := cs.span fun c => !endsAuthority c
  let (rest, fragment) := cutAt '#' rest
  let (path, query) := cutAt '?' rest
  ⟨authority, path, query, fragment⟩

/-- Whether no part of a layout runs into the next one. -/
structure Layout.IsWellFormed (L : Layout) : Prop where
  authority : ∀ c ∈ L.authority, endsAuthority c = false
  path : L.path = [] ∨ L.path.head? = some '/'
  pathChars : ∀ c ∈ L.path, c ≠ '?' ∧ c ≠ '#'
  query : '#' ∉ L.query

/-- The parts of a web address that is laid out. -/
def Layout.parts (scheme : List Char) (L : Layout) : Parts :=
  let (path, params) := cutParams L.path
  { scheme, authority := L.authority, path, params, query := L.query, fragment := L.fragment }

/-! ## Layouts of texts -/

theorem mem_delimited {c d : Char} {part : List Char} (hd : d ∈ delimited c part) :
    d = c ∨ d ∈ part := by
  rw [delimited] at hd
  split at hd
  · simp at hd
  · exact List.mem_cons.mp hd

theorem cutAt_delimited {c : Char} {front part : List Char} (hfront : c ∉ front) :
    cutAt c (front ++ delimited c part) = (front, part) := by
  rw [delimited]
  split
  · next hempty =>
      rw [List.isEmpty_iff.mp hempty, List.append_nil, cutAt_of_not_mem hfront]
  · exact cutAt_append hfront

/-- A text that is laid out well has the layout. -/
theorem layout_text {L : Layout} (hL : L.IsWellFormed) : layout L.text = L := by
  obtain ⟨authority, path, query, fragment⟩ := L
  obtain ⟨hauthority, hpath, hchars, hquery⟩ := hL
  have hrest : ∀ c, (path ++ delimited '?' query ++ delimited '#' fragment).head? = some c →
      (!endsAuthority c) = false := by
    intro c hc
    rcases hpath with rfl | hslash
    · rw [List.nil_append, delimited, delimited] at hc
      split at hc
      · split at hc
        · simp at hc
        · obtain rfl : '#' = c := by simpa using hc
          rfl
      · obtain rfl : '?' = c := by simpa using hc
        rfl
    · rw [List.append_assoc, List.head?_append, hslash] at hc
      obtain rfl : '/' = c := by simpa using hc
      rfl
  have hall : ∀ c ∈ authority, (!endsAuthority c) = true := fun c hc => by
    simp [hauthority c hc]
  have hspan := span_append hall hrest
  have hnumber : '#' ∉ path ++ delimited '?' query := by
    intro hmem
    rcases List.mem_append.mp hmem with hmem | hmem
    · exact (hchars _ hmem).2 rfl
    · rcases mem_delimited hmem with hmem | hmem
      · exact absurd hmem (by decide)
      · exact hquery hmem
  have hmark : '?' ∉ path := fun hmem => (hchars _ hmem).1 rfl
  simp only [Layout.text, layout, List.append_assoc] at hspan ⊢
  rw [hspan]
  simp only [← List.append_assoc, cutAt_delimited hnumber, cutAt_delimited hmark]

/-- A text is laid out as an authority and what the first delimiter after it begins. -/
theorem exists_layout (cs : List Char) :
    ∃ authority rest, cs = authority ++ rest ∧ (∀ c ∈ authority, endsAuthority c = false) ∧
      (∀ c, rest.head? = some c → endsAuthority c = true) ∧
      layout cs = ⟨authority, (cutAt '?' (cutAt '#' rest).1).1, (cutAt '?' (cutAt '#' rest).1).2,
        (cutAt '#' rest).2⟩ := by
  refine ⟨cs.takeWhile fun c => !endsAuthority c, cs.dropWhile fun c => !endsAuthority c,
    List.takeWhile_append_dropWhile.symm, ?_, ?_, ?_⟩
  · intro c hc
    simpa using List.mem_takeWhile_imp hc
  · intro c hc
    simpa using head?_dropWhile _ _ hc
  · rw [layout, List.span_eq_takeWhile_dropWhile]

theorem head?_cutAt_fst {c : Char} {cs : List Char} (hcs : (cutAt c cs).1 ≠ []) :
    (cutAt c cs).1.head? = cs.head? := by
  rcases cutAt_cases c cs with ⟨-, hcut⟩ | ⟨before, after, rfl, -, hcut⟩
  · rw [hcut]
  · rw [hcut] at hcs ⊢
    obtain ⟨d, more, rfl⟩ := List.exists_cons_of_ne_nil hcs
    rfl

theorem isWellFormed_layout (cs : List Char) : (layout cs).IsWellFormed := by
  obtain ⟨authority, rest, -, hauthority, hends, hlayout⟩ := exists_layout cs
  rw [hlayout]
  have hchars : ∀ c ∈ (cutAt '?' (cutAt '#' rest).1).1, c ≠ '?' ∧ c ≠ '#' := fun c hc =>
    ⟨(mem_cutAt_fst hc).2, (mem_cutAt_fst (mem_cutAt_fst hc).1).2⟩
  refine ⟨hauthority, ?_, hchars, fun hmem => (mem_cutAt_fst (mem_cutAt_snd hmem)).2 rfl⟩
  by_cases hpath : (cutAt '?' (cutAt '#' rest).1).1 = []
  · exact .inl hpath
  · right
    have hrest : (cutAt '#' rest).1 ≠ [] := by
      intro hnil
      rw [hnil] at hpath
      exact hpath rfl
    obtain ⟨c, more, hcons⟩ := List.exists_cons_of_ne_nil hpath
    have hhead : rest.head? = some c := by
      rw [← head?_cutAt_fst hrest, ← head?_cutAt_fst hpath, hcons]
      rfl
    have hc := hchars c (by rw [hcons]; simp)
    have hslash := hends c hhead
    simp only [endsAuthority, Bool.or_eq_true, decide_eq_true_eq] at hslash
    rw [hcons]
    rcases hslash with (rfl | rfl) | rfl
    · rfl
    · exact absurd rfl hc.1
    · exact absurd rfl hc.2

/-- The characters of a layout are those of the text. -/
theorem mem_layout {cs : List Char} {c : Char}
    (hc : c ∈ (layout cs).authority ∨ c ∈ (layout cs).path ∨ c ∈ (layout cs).query ∨
      c ∈ (layout cs).fragment) : c ∈ cs := by
  obtain ⟨authority, rest, rfl, -, -, hlayout⟩ := exists_layout cs
  rw [hlayout] at hc
  rcases hc with hc | hc | hc | hc
  · exact List.mem_append_left rest hc
  · exact List.mem_append_right authority (mem_cutAt_fst (mem_cutAt_fst hc).1).1
  · exact List.mem_append_right authority (mem_cutAt_fst (mem_cutAt_snd hc)).1
  · exact List.mem_append_right authority (mem_cutAt_snd hc)

/-- Characters that delimit nothing belong to an authority only if nothing follows it. -/
theorem layout_append_authority (cs : List Char) {more : List Char}
    (hmore : ∀ c ∈ more, endsAuthority c = false) :
    (layout (cs ++ more)).authority = (layout cs).authority ∨
      ((layout cs).authority = cs ∧ (layout cs).path = [] ∧
        (layout (cs ++ more)).authority = cs ++ more) := by
  obtain ⟨authority, rest, rfl, hauthority, hends, hlayout⟩ := exists_layout cs
  rw [hlayout]
  cases rest with
  | nil =>
      right
      have hall : ∀ c ∈ authority ++ more, (!endsAuthority c) = true := by
        intro c hc
        rcases List.mem_append.mp hc with hc | hc
        · simp [hauthority c hc]
        · simp [hmore c hc]
      have hspan : (authority ++ more ++ []).span (fun c => !endsAuthority c) =
          (authority ++ more, []) := span_append hall (by simp)
      rw [List.append_nil] at hspan
      rw [List.append_nil, layout, hspan]
      exact ⟨rfl, rfl, rfl⟩
  | cons d rest =>
      left
      have hspan : (authority ++ (d :: rest ++ more)).span (fun c => !endsAuthority c) =
          (authority, d :: rest ++ more) := by
        apply span_append (fun c hc => by simp [hauthority c hc])
        intro c hc
        obtain rfl : d = c := by simpa using hc
        simp [hends d rfl]
      rw [List.append_assoc, layout, hspan]

/-- Characters that delimit nothing make the last part of a layout longer. -/
theorem layout_append (cs : List Char) {more : List Char}
    (hmore : ∀ c ∈ more, endsAuthority c = false) :
    (layout (cs ++ more)).fragment = (layout cs).fragment ++ more ∨
      (layout (cs ++ more)).query = (layout cs).query ++ more ∨
      ((layout cs).path ≠ [] ∧ (layout (cs ++ more)).authority = (layout cs).authority ∧
        (layout (cs ++ more)).path = (layout cs).path ++ more) ∨
      ((layout cs).path = [] ∧ (layout (cs ++ more)).path = []) := by
  obtain ⟨authority, rest, rfl, hauthority, hends, hlayout⟩ := exists_layout cs
  rw [hlayout]
  by_cases hrest : rest = []
  · subst hrest
    have hspan : (authority ++ [] ++ more).span (fun c => !endsAuthority c) =
        (authority ++ more, []) := by
      have hall : ∀ c ∈ authority ++ more, (!endsAuthority c) = true := by
        intro c hc
        rcases List.mem_append.mp hc with hc | hc
        · simp [hauthority c hc]
        · simp [hmore c hc]
      have hnone : ∀ c, ([] : List Char).head? = some c → (!endsAuthority c) = false := by simp
      simpa using span_append hall hnone
    right; right; right
    rw [layout, hspan]
    exact ⟨rfl, rfl⟩
  · have hspan : (authority ++ rest ++ more).span (fun c => !endsAuthority c) =
        (authority, rest ++ more) := by
      rw [List.append_assoc]
      apply span_append (fun c hc => by simp [hauthority c hc])
      intro c hc
      obtain ⟨d, tail, rfl⟩ := List.exists_cons_of_ne_nil hrest
      rw [hends c hc]
      rfl
    have hnumber : '#' ∉ more := fun h => absurd (hmore _ h) (by decide)
    have hmark : '?' ∉ more := fun h => absurd (hmore _ h) (by decide)
    rw [layout, hspan]
    rcases cutAt_cases '#' rest with ⟨hno, hcut⟩ | ⟨before, after, rfl, hbefore, hcut⟩
    · have hboth : cutAt '#' (rest ++ more) = (rest ++ more, []) :=
        cutAt_of_not_mem (by simp [hno, hnumber])
      right
      simp only [hcut, hboth]
      rcases cutAt_cases '?' rest with ⟨hno, hcut⟩ | ⟨before, after, rfl, hbefore, hcut⟩
      · have hboth : cutAt '?' (rest ++ more) = (rest ++ more, []) :=
          cutAt_of_not_mem (by simp [hno, hmark])
        right; left
        simp only [hcut, hboth]
        exact ⟨hrest, trivial, trivial⟩
      · left
        rw [List.append_assoc, List.cons_append, cutAt_append hbefore, cutAt_append hbefore]
    · left
      simp only [List.append_assoc, List.cons_append, cutAt_append hbefore]

end LinkShelf.Url
