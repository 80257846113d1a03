/-!
Outcomes in sequence: what follows a result is given it, and nothing follows a failure.
-/

namespace LinkShelf

variable {ε α β : Type}

@[simp] theorem ok_bind (a : α) (f : α → Except ε β) : (Except.ok a >>= f) = f a := rfl

@[simp] theorem error_bind (e : ε) (f : α → Except ε β) :
    ((Except.error e : Except ε α) >>= f) = .error e := rfl

theorem bind_eq_ok {x : Except ε α} {f : α → Except ε β} {b : β} :
    (x >>= f) = .ok b ↔ ∃ a, x = .ok a ∧ f a = .ok b := by
  cases x with
  | ok a => simp
  | error e => simp

theorem bind_eq_error {x : Except ε α} {f : α → Except ε β} {e : ε} :
    (x >>= f) = .error e ↔ x = .error e ∨ ∃ a, x = .ok a ∧ f a = .error e := by
  cases x with
  | ok a => simp
  | error other => simp

theorem toOption_eq_some {result : Except ε α} {a : α} :
    result.toOption = some a ↔ result = .ok a := by
  cases result <;> simp [Except.toOption]

theorem bind_ne_error {x : Except ε α} {f : α → Except ε β} {e : ε} (hx : x ≠ .error e)
    (hf : ∀ a, f a ≠ .error e) : (x >>= f) ≠ .error e := by
  cases x with
  | ok a => exact hf a
  | error other =>
      intro heq
      apply hx
      rw [Except.error.inj heq]

/-- A function that takes back another one on the items of a list takes it back on the list. -/
theorem mapM_map_eq_ok {f : β → Except ε α} {g : α → β} {items : List α}
    (hitems : ∀ a ∈ items, f (g a) = .ok a) : (items.map g).mapM f = .ok items := by
  induction items with
  | nil => rfl
  | cons a rest ih =>
      rw [List.map_cons, List.mapM_cons, hitems a (by simp),
        ih fun b hb => hitems b (by simp [hb])]
      rfl

/-- A function is applied to a list as soon as it has a result on every item. -/
theorem mapM_eq_ok_iff {f : α → Except ε β} {items : List α} {values : List β} :
    items.mapM f = .ok values ↔
      (∀ a ∈ items, ∃ b, f a = .ok b) ∧ values = items.filterMap fun a => (f a).toOption := by
  induction items generalizing values with
  | nil => simp [pure, Except.pure, eq_comm]
  | cons a rest ih =>
      rw [List.mapM_cons]
      cases hfirst : f a with
      | error fault => simp [hfirst]
      | ok b =>
          have hvalues : ((a :: rest).filterMap fun a => (f a).toOption) =
              b :: rest.filterMap fun a => (f a).toOption :=
            List.filterMap_cons_some (toOption_eq_some.mpr hfirst)
          simp only [ok_bind, bind_eq_ok, ih, pure, Except.pure, Except.ok.injEq, hvalues,
            List.forall_mem_cons]
          constructor
          · rintro ⟨more, ⟨hrest, rfl⟩, rfl⟩
            exact ⟨⟨⟨b, hfirst⟩, hrest⟩, rfl⟩
          · rintro ⟨⟨-, hrest⟩, rfl⟩
            exact ⟨_, ⟨hrest, rfl⟩, rfl⟩

theorem exists_split_cons {P Q : α → Prop} {first : α} {rest : List α} :
    (∃ front a back, first :: rest = front ++ a :: back ∧ (∀ b ∈ front, P b) ∧ Q a) ↔
      Q first ∨ P first ∧
        ∃ front a back, rest = front ++ a :: back ∧ (∀ b ∈ front, P b) ∧ Q a := by
  constructor
  · rintro ⟨front, a, back, hitems, hfront, ha⟩
    cases front with
    | nil =>
        cases hitems
        exact .inl ha
    | cons b front =>
        cases hitems
        obtain ⟨hfirst, hrest⟩ := List.forall_mem_cons.mp hfront
        exact .inr ⟨hfirst, front, a, back, rfl, hrest, ha⟩
  · rintro (hfirst | ⟨hfirst, front, a, back, rfl, hfront, ha⟩)
    · exact ⟨[], first, rest, rfl, nofun, hfirst⟩
    · exact ⟨first :: front, a, back, rfl, List.forall_mem_cons.mpr ⟨hfirst, hfront⟩, ha⟩

/-- A function is not applied to a list because of the first item that it has no result on. -/
theorem mapM_eq_error_iff {f : α → Except ε β} {items : List α} {e : ε} :
    items.mapM f = .error e ↔ ∃ front a back, items = front ++ a :: back ∧
      (∀ b ∈ front, ∃ value, f b = .ok value) ∧ f a = .error e := by
  induction items with
  | nil =>
      constructor
      · rintro ⟨⟩
      · rintro ⟨front, a, back, hitems, -⟩
        cases front <;> cases hitems
  | cons first rest ih =>
      rw [List.mapM_cons, exists_split_cons, ← ih]
      cases hfirst : f first with
      | error other => simp
      | ok value => cases rest.mapM f <;> simp [pure, Except.pure]

private theorem filterAuxM_eq_ok_iff {f : α → Except ε Bool} {items front kept : List α} :
    items.filterAuxM f front = .ok kept ↔
      (∀ a ∈ items, ∃ b, f a = .ok b) ∧
        kept = (items.filter fun a => (f a).toOption = some true).reverse ++ front := by
  induction items generalizing front with
  | nil => simp [List.filterAuxM, pure, Except.pure, eq_comm]
  | cons a rest ih =>
      rw [List.filterAuxM]
      cases htest : f a with
      | error fault => simp [htest]
      | ok b =>
          rw [ok_bind, ih]
          cases b <;> simp [htest, Except.toOption]

/-- A list is filtered as soon as the test of every item has a result. -/
theorem filterM_eq_ok_iff {f : α → Except ε Bool} {items kept : List α} :
    items.filterM f = .ok kept ↔
      (∀ a ∈ items, ∃ b, f a = .ok b) ∧
        kept = items.filter fun a => (f a).toOption = some true := by
  simp only [List.filterM, bind_eq_ok, filterAuxM_eq_ok_iff, pure, Except.pure, Except.ok.injEq,
    List.append_nil]
  constructor
  · rintro ⟨reversed, ⟨htests, rfl⟩, rfl⟩
    exact ⟨htests, List.reverse_reverse _⟩
  · rintro ⟨htests, rfl⟩
    exact ⟨_, ⟨htests, rfl⟩, List.reverse_reverse _⟩

private theorem exists_of_filterAuxM_eq_error {f : α → Except ε Bool} {items : List α} {e : ε}
    (front : List α) (h : items.filterAuxM f front = .error e) : ∃ a ∈ items, f a = .error e := by
  induction items generalizing front with
  | nil => cases h
  | cons a rest ih =>
      rw [List.filterAuxM] at h
      cases htest : f a with
      | error other =>
          rw [htest] at h
          cases h
          exact ⟨a, by simp, htest⟩
      | ok b =>
          rw [htest, ok_bind] at h
          obtain ⟨c, hc, hfault⟩ := ih _ h
          exact ⟨c, by simp [hc], hfault⟩

theorem exists_of_filterM_eq_error {f : α → Except ε Bool} {items : List α} {e : ε}
    (h : items.filterM f = .error e) : ∃ a ∈ items, f a = .error e := by
  apply exists_of_filterAuxM_eq_error []
  cases hkept : items.filterAuxM f [] with
  | ok kept =>
      rw [List.filterM, hkept] at h
      cases h
  | error other =>
      rw [List.filterM, hkept] at h
      cases h
      rfl

end LinkShelf
