/-!
Cutting texts at characters and putting the pieces together again. Main statement: joining the
pieces of a text with the character it was cut at gives the text back (`joinWith_pieces`).
-/

namespace LinkShelf.Text

/-- The pieces between the elements that satisfy `p`; n such elements give n + 1 pieces. -/
def pieces {α : Type} (p : α → Bool) : List α → List (List α)
  | [] => [[]]
  | c :: cs =>
    if p c then [] :: pieces p cs
    else
      match pieces p cs with
      | [] => [[c]]
      | first :: rest => (c :: first) :: rest

/-- The pieces one after the other, with `sep` between neighbours. -/
def joinWith {α : Type} (sep : List α) : List (List α) → List α
  | [] => []
  | [piece] => piece
  | piece :: next :: rest => piece ++ sep ++ joinWith sep (next :: rest)

/-- What stands before and after the first element that satisfies `p`. -/
def cutFirst {α : Type} (p : α → Bool) : List α → Option (List α × List α)
  | [] => none
  | c :: cs =>
    if p c then some ([], cs) else (cutFirst p cs).map fun (before, after) => (c :: before, after)

/-- What stands before and after the last element that satisfies `p`. -/
def cutLast {α : Type} (p : α → Bool) : List α → Option (List α × List α)
  | [] => none
  | c :: cs =>
    match cutLast p cs with
    | some (before, after) => some (c :: before, after)
    | none => if p c then some ([], cs) else none

/-- Whether `pattern` stands somewhere in the text. -/
def contains (pattern : List Char) : List Char → Bool
  | [] => pattern.isEmpty
  | c :: cs => pattern.isPrefixOf (c :: cs) || contains pattern cs

/-- The text with every occurrence of a character replaced by another text. -/
def replaceChar (old : Char) (new : List Char) (cs : List Char) : List Char :=
  cs.flatMap fun c => if c = old then new else [c]

theorem pieces_ne_nil {α : Type} (p : α → Bool) (cs : List α) : pieces p cs ≠ [] := by
  cases cs with
  | nil => simp [pieces]
  | cons c cs =>
    rw [pieces]
    split
    · simp
    · split <;> simp

theorem pieces_cons_of_neg {α : Type} {p : α → Bool} {c : α} (h : p c = false) (cs : List α) :
    ∃ first rest, pieces p cs = first :: rest ∧ pieces p (c :: cs) = (c :: first) :: rest := by
  cases hp : pieces p cs with
  | nil => exact absurd hp (pieces_ne_nil p cs)
  | cons first rest => exact ⟨first, rest, rfl, by simp [pieces, h, hp]⟩

theorem joinWith_cons_cons {α : Type} (sep : List α) (c : α) (first : List α)
    (rest : List (List α)) :
    joinWith sep ((c :: first) :: rest) = c :: joinWith sep (first :: rest) := by
  cases rest <;> simp [joinWith]

theorem joinWith_pieces {α : Type} [DecidableEq α] (c : α) (cs : List α) :
    joinWith [c] (pieces (· == c) cs) = cs := by
  induction cs with
  | nil => rfl
  | cons d ds ih =>
    by_cases h : d = c
    · subst h
      cases hp : pieces (· == d) ds with
      | nil => exact absurd hp (pieces_ne_nil _ ds)
      | cons first rest =>
        rw [hp] at ih
        simp only [pieces, beq_self_eq_true, if_true, hp, joinWith, ih]
        rfl
    · obtain ⟨first, rest, hds, hcons⟩ := pieces_cons_of_neg (p := (· == c)) (c := d)
        (by simpa using h) ds
      rw [hcons, joinWith_cons_cons, ← hds, ih]

/-- No piece holds an element at which the list was cut. -/
theorem not_mem_pieces {α : Type} {p : α → Bool} {cs piece : List α} (h : piece ∈ pieces p cs) :
    ∀ c ∈ piece, p c = false := by
  induction cs generalizing piece with
  | nil => simp_all [pieces]
  | cons d ds ih =>
    cases hd : p d with
    | true =>
      simp only [pieces, hd, if_true, List.mem_cons] at h
      rcases h with rfl | h
      · simp
      · exact ih h
    | false =>
      obtain ⟨first, rest, hds, hcons⟩ := pieces_cons_of_neg hd ds
      rw [hcons] at h
      rw [hds] at ih
      rcases List.mem_cons.1 h with rfl | h
      · intro c hc
        rcases List.mem_cons.1 hc with rfl | hc
        · exact hd
        · exact ih List.mem_cons_self c hc
      · exact ih (List.mem_cons_of_mem _ h)

theorem cutFirst_eq_some {α : Type} {p : α → Bool} {cs before after : List α}
    (h : cutFirst p cs = some (before, after)) :
    ∃ c, p c = true ∧ cs = before ++ c :: after ∧ ∀ d ∈ before, p d = false := by
  induction cs generalizing before with
  | nil => simp [cutFirst] at h
  | cons d ds ih =>
    rw [cutFirst] at h
    split at h
    · rename_i hd
      simp only [Option.some.injEq, Prod.mk.injEq] at h
      obtain ⟨rfl, rfl⟩ := h
      exact ⟨d, hd, rfl, by simp⟩
    · rename_i hd
      obtain ⟨⟨b, a⟩, hba, heq⟩ := Option.map_eq_some_iff.1 h
      simp only [Prod.mk.injEq] at heq
      obtain ⟨rfl, rfl⟩ := heq
      obtain ⟨c, hc, rfl, hb⟩ := ih hba
      exact ⟨c, hc, rfl, by simp_all⟩

theorem cutFirst_eq_none {α : Type} {p : α → Bool} {cs : List α} :
    cutFirst p cs = none ↔ ∀ c ∈ cs, p c = false := by
  induction cs with
  | nil => simp [cutFirst]
  | cons d ds ih => cases hd : p d <;> simp [cutFirst, hd, ih]

end LinkShelf.Text
