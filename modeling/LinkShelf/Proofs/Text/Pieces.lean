import LinkShelf.Url.Parts
import Mathlib.Data.List.TakeDrop

/-!
Where a text is cut: the first and the last place are known from what stands before and after them.
-/

namespace LinkShelf.Text

variable {α : Type} {p : α → Bool} {before after cs : List α} {c : α}

-- The library also decides what holds of all characters there are; the ones of a text are few.
instance decidableForallMem (q : Char → Prop) [DecidablePred q] (cs : List Char) :
    Decidable (∀ c ∈ cs, q c) :=
  List.decidableBAll q cs

theorem beq_of_not_mem {c : Char} {cs : List Char} (hc : c ∉ cs) : ∀ d ∈ cs, (d == c) = false := by
  intro d hd
  rw [beq_eq_false_iff_ne]
  rintro rfl
  exact hc hd

/-- The longest beginning whose elements satisfy `p`, and the rest. -/
theorem span_append {front rest : List α} (hfront : ∀ c ∈ front, p c = true)
    (hrest : ∀ c, rest.head? = some c → p c = false) : (front ++ rest).span p = (front, rest) := by
  rw [List.span_eq_takeWhile_dropWhile]
  induction front with
  | nil =>
      cases rest with
      | nil => rfl
      | cons c rest => simp [hrest c rfl]
  | cons c front ih =>
      have hmore := ih fun d hd => hfront d (by simp [hd])
      simp only [Prod.mk.injEq] at hmore
      simp [hfront c (by simp), hmore.1, hmore.2]

theorem pieces_of_forall (hcs : ∀ d ∈ cs, p d = false) : pieces p cs = [cs] := by
  induction cs with
  | nil => rfl
  | cons d cs ih =>
      obtain ⟨first, more, hpieces, hcons⟩ := pieces_cons_of_neg (hcs d (by simp)) cs
      rw [ih fun e he => hcs e (by simp [he])] at hpieces
      obtain ⟨rfl, rfl⟩ := List.cons.inj hpieces
      exact hcons

theorem pieces_append (hc : p c = true) (hbefore : ∀ d ∈ before, p d = false) :
    pieces p (before ++ c :: after) = before :: pieces p after := by
  induction before with
  | nil => rw [List.nil_append, pieces, if_pos hc]
  | cons d before ih =>
      obtain ⟨first, more, hpieces, hcons⟩ :=
        pieces_cons_of_neg (hbefore d (by simp)) (before ++ c :: after)
      rw [ih fun e he => hbefore e (by simp [he])] at hpieces
      obtain ⟨rfl, rfl⟩ := List.cons.inj hpieces
      exact hcons

theorem mem_of_mem_pieces {piece : List α} (hpiece : piece ∈ pieces p cs) (hc : c ∈ piece) :
    c ∈ cs := by
  induction cs generalizing piece with
  | nil =>
      obtain rfl := List.mem_singleton.mp hpiece
      exact hc
  | cons d ds ih =>
      cases hd : p d with
      | true =>
          rw [pieces, if_pos hd, List.mem_cons] at hpiece
          obtain rfl | hpiece := hpiece
          · cases hc
          · exact List.mem_cons_of_mem d (ih hpiece hc)
      | false =>
          obtain ⟨first, more, hpieces, hcons⟩ := pieces_cons_of_neg hd ds
          rw [hcons, List.mem_cons] at hpiece
          rw [hpieces] at ih
          obtain rfl | hpiece := hpiece
          · obtain rfl | hc := List.mem_cons.mp hc
            · exact List.mem_cons_self
            · exact List.mem_cons_of_mem d (ih List.mem_cons_self hc)
          · exact List.mem_cons_of_mem d (ih (List.mem_cons_of_mem first hpiece) hc)

/-- What stands before a cut and what stands after it are cut alone. -/
theorem pieces_append_cons (hc : p c = true) (before after : List α) :
    pieces p (before ++ c :: after) = pieces p before ++ pieces p after := by
  induction before with
  | nil => exact pieces_append hc nofun
  | cons d before ih =>
      rw [List.cons_append]
      cases hd : p d with
      | true => rw [pieces, if_pos hd, ih, pieces, if_pos hd, List.cons_append]
      | false =>
          obtain ⟨first, rest, hpieces, hcons⟩ := pieces_cons_of_neg hd before
          rw [hcons, pieces, if_neg (by simp [hd]), ih, hpieces]
          rfl

theorem joinWith_append {sep : List α} {front back : List (List α)} (hfront : front ≠ [])
    (hback : back ≠ []) :
    joinWith sep (front ++ back) = joinWith sep front ++ sep ++ joinWith sep back := by
  induction front with
  | nil => exact absurd rfl hfront
  | cons first rest ih =>
      cases rest with
      | nil =>
          obtain ⟨next, more, rfl⟩ := List.exists_cons_of_ne_nil hback
          rfl
      | cons second rest =>
          have hmore := ih nofun
          rw [List.cons_append] at hmore
          rw [List.cons_append, List.cons_append, joinWith, hmore, joinWith]
          simp only [List.append_assoc]

theorem cutFirst_append (hc : p c = true) (hbefore : ∀ d ∈ before, p d = false) :
    cutFirst p (before ++ c :: after) = some (before, after) := by
  induction before with
  | nil => rw [List.nil_append, cutFirst, if_pos hc]
  | cons d before ih =>
      rw [List.cons_append, cutFirst, if_neg (by simp [hbefore d (by simp)]),
        ih fun e he => hbefore e (by simp [he])]
      rfl

theorem cutLast_eq_none : cutLast p cs = none ↔ ∀ d ∈ cs, p d = false := by
  induction cs with
  | nil => simp [cutLast]
  | cons d cs ih =>
      rw [List.forall_mem_cons, ← ih, cutLast]
      cases hcs : cutLast p cs with
      | some parts => simp
      | none => cases hd : p d <;> simp

theorem cutLast_append (hc : p c = true) (hafter : ∀ d ∈ after, p d = false) :
    cutLast p (before ++ c :: after) = some (before, after) := by
  induction before with
  | nil => rw [List.nil_append, cutLast, cutLast_eq_none.mpr hafter, hc]; rfl
  | cons d before ih => rw [List.cons_append, cutLast, ih]

theorem cutLast_eq_some (hcut : cutLast p cs = some (before, after)) :
    ∃ c, p c = true ∧ cs = before ++ c :: after ∧ ∀ d ∈ after, p d = false := by
  induction cs generalizing before with
  | nil => simp [cutLast] at hcut
  | cons d cs ih =>
      rw [cutLast] at hcut
      cases hcs : cutLast p cs with
      | some parts =>
          obtain ⟨front, back⟩ := parts
          rw [hcs] at hcut
          obtain ⟨rfl, rfl⟩ : d :: front = before ∧ back = after := by simpa using hcut
          obtain ⟨c, hc, rfl, hafter⟩ := ih hcs
          exact ⟨c, hc, rfl, hafter⟩
      | none =>
          rw [hcs] at hcut
          cases hd : p d with
          | false => simp [hd] at hcut
          | true =>
              obtain ⟨rfl, rfl⟩ : [] = before ∧ cs = after := by simpa [hd] using hcut
              exact ⟨d, hd, rfl, cutLast_eq_none.mp hcs⟩

end LinkShelf.Text

namespace LinkShelf.Url

open Text

variable {c : Char} {before after cs : List Char}

theorem cutAt_append (hbefore : c ∉ before) : cutAt c (before ++ c :: after) = (before, after) := by
  have hcut : cutFirst (· == c) (before ++ c :: after) = some (before, after) :=
    cutFirst_append (by simp) (beq_of_not_mem hbefore)
  rw [cutAt, hcut]

theorem cutAt_of_not_mem (hcs : c ∉ cs) : cutAt c cs = (cs, []) := by
  have hcut : cutFirst (· == c) cs = none := cutFirst_eq_none.mpr (beq_of_not_mem hcs)
  rw [cutAt, hcut]

/-- A text is cut at a character that it has, or it is kept whole. -/
theorem cutAt_cases (c : Char) (cs : List Char) :
    (c ∉ cs ∧ cutAt c cs = (cs, [])) ∨
      ∃ before after, cs = before ++ c :: after ∧ c ∉ before ∧ cutAt c cs = (before, after) := by
  by_cases hc : c ∈ cs
  · right
    obtain ⟨before, after, rfl, hbefore⟩ := List.eq_append_cons_of_mem hc
    exact ⟨before, after, rfl, hbefore, cutAt_append hbefore⟩
  · exact .inl ⟨hc, cutAt_of_not_mem hc⟩

theorem mem_cutAt_fst {d : Char} (hd : d ∈ (cutAt c cs).1) : d ∈ cs ∧ d ≠ c := by
  rcases cutAt_cases c cs with ⟨hc, hcut⟩ | ⟨before, after, rfl, hc, hcut⟩
  · rw [hcut] at hd
    exact ⟨hd, fun h => hc (h ▸ hd)⟩
  · rw [hcut] at hd
    exact ⟨by simp [hd], fun h => hc (h ▸ hd)⟩

theorem sublist_cutAt_fst (c : Char) (cs : List Char) : (cutAt c cs).1.Sublist cs := by
  rcases cutAt_cases c cs with ⟨-, hcut⟩ | ⟨before, after, rfl, -, hcut⟩
  · simp [hcut]
  · simp [hcut]

theorem mem_cutAt_snd {d : Char} (hd : d ∈ (cutAt c cs).2) : d ∈ cs := by
  rcases cutAt_cases c cs with ⟨-, hcut⟩ | ⟨before, after, rfl, -, hcut⟩
  · simp [hcut] at hd
  · rw [hcut] at hd
    simp [hd]

end LinkShelf.Url
