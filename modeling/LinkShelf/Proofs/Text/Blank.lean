import LinkShelf.Text.Blank
import LinkShelf.Text.Pieces

/-!
White space at the end of a text, and texts that hold a pattern.
-/

namespace LinkShelf.Text

variable {p : Char → Bool} {front cs pattern : List Char} {c : Char}

theorem dropEndWhile_append (hc : p c = false) (front cs : List Char) :
    dropEndWhile p (front ++ c :: cs) = front ++ c :: dropEndWhile p cs := by
  induction front with
  | nil => simp [dropEndWhile_cons, hc]
  | cons d front ih => simp [dropEndWhile_cons, ih]

theorem exists_dropEndWhile (p : Char → Bool) (cs : List Char) :
    ∃ more, cs = dropEndWhile p cs ++ more ∧ ∀ c ∈ more, p c = true := by
  induction cs with
  | nil => exact ⟨[], rfl, by simp⟩
  | cons c cs ih =>
      obtain ⟨more, hcs, hmore⟩ := ih
      rw [dropEndWhile_cons]
      split
      · next hdrop =>
          refine ⟨c :: cs, rfl, ?_⟩
          rw [List.forall_mem_cons]
          exact ⟨hdrop.2, (dropEndWhile_eq_nil_iff p cs).mp hdrop.1⟩
      · exact ⟨more, by rw [List.cons_append, ← hcs], hmore⟩

theorem strip_sublist (cs : List Char) : (strip cs).Sublist cs := by
  have hfront : strip cs <+: cs.dropWhile isBlank := dropEndWhile_prefix isBlank _
  exact hfront.sublist.trans (List.dropWhile_sublist isBlank)

/-- White space around a text without any is what stripping takes off. -/
theorem strip_append {before core after : List Char} (hbefore : ∀ c ∈ before, isBlank c = true)
    (hafter : ∀ c ∈ after, isBlank c = true) (hcore : ∀ c ∈ core, isBlank c = false)
    (hne : core ≠ []) : strip (before ++ (core ++ after)) = core := by
  have hstart : (before ++ (core ++ after)).dropWhile isBlank = core ++ after := by
    rw [List.dropWhile_append_of_pos hbefore]
    obtain ⟨c, cs, rfl⟩ := List.exists_cons_of_ne_nil hne
    rw [List.cons_append, List.dropWhile_cons, hcore c (by simp)]
    rfl
  have hend : dropEndWhile isBlank after = [] := (dropEndWhile_eq_nil_iff isBlank after).mpr hafter
  obtain ⟨front, c, rfl⟩ := (List.eq_nil_or_concat core).resolve_left hne
  rw [strip, hstart, stripEnd, List.concat_eq_append, List.append_assoc, List.singleton_append,
    dropEndWhile_append (hcore c (by simp)), hend]

/-- A character that is not white space keeps what follows it as it is. -/
theorem strip_append_cons (hc : isBlank c = false) (hcs : strip cs = cs) (front : List Char) :
    strip (front ++ c :: cs) = front.dropWhile isBlank ++ c :: cs := by
  have hstart : (front ++ c :: cs).dropWhile isBlank = front.dropWhile isBlank ++ c :: cs := by
    rw [List.dropWhile_append]
    split
    · next hnone => simp [List.isEmpty_iff.mp hnone, hc]
    · rfl
  have hend : dropEndWhile isBlank cs = cs := by
    rw [← hcs]
    exact dropEndWhile_of_getLast? isBlank _ fun _ => getLast?_strip cs
  rw [strip, hstart, stripEnd, dropEndWhile_append hc, hend]

theorem strip_of_forall (hcs : ∀ c ∈ cs, isBlank c = false) : strip cs = cs :=
  strip_eq_self (fun c hc => hcs c (List.mem_of_mem_head? hc))
    (fun c hc => hcs c (List.mem_of_mem_getLast? hc))

theorem strip_cons (hc : isBlank c = false) (cs : List Char) :
    ∃ rest, strip (c :: cs) = c :: rest := by
  rw [strip, List.dropWhile_cons, hc]
  exact ⟨dropEndWhile isBlank cs, dropEndWhile_append hc [] cs⟩

theorem contains_append (hcs : pattern <+: cs) (front : List Char) :
    contains pattern (front ++ cs) = true := by
  induction front with
  | nil =>
      cases cs with
      | nil =>
          rw [List.prefix_nil] at hcs
          simp [contains, hcs]
      | cons c cs => simp [contains, hcs]
  | cons c front ih => simp [contains, ih]

end LinkShelf.Text
