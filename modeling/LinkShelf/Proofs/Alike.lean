import LinkShelf.Proofs.Operation

/-!
Operations side by side: two of them, each on a state of its own, end alike if they have the same
outcome and lead to states that are related. There is one rule for each way of making an operation;
what is reported does not count.
-/

namespace LinkShelf.Operation

variable {σ τ α β : Type} {Rel : σ → τ → Prop} {s : σ} {t : τ}

/-- Whether two operations have the same outcome and lead to related states. -/
def Alike (Rel : σ → τ → Prop) (op : Operation σ α) (other : Operation τ α) (s : σ) (t : τ) :
    Prop :=
  ∀ events reported, (op ⟨s, events⟩).1 = (other ⟨t, reported⟩).1 ∧
    Rel (op ⟨s, events⟩).2.state (other ⟨t, reported⟩).2.state

theorem Alike.execute {op : Operation σ α} {other : Operation τ α} (h : Alike Rel op other s t) :
    (op.execute s).1 = (other.execute t).1 ∧
      Rel (op.execute s).2.state (other.execute t).2.state :=
  h [] []

/-- What is known of each of two operations on its own tells that they end alike. -/
theorem alike_of_ends {op : Operation σ α} {other : Operation τ α}
    {post : Except Failure α → σ → Prop} {otherPost : Except Failure α → τ → Prop}
    (hop : op.Ends s post) (hother : other.Ends t otherPost)
    (hpost : ∀ result after otherResult otherAfter, post result after →
      otherPost otherResult otherAfter → result = otherResult ∧ Rel after otherAfter) :
    Alike Rel op other s t :=
  fun events reported => hpost _ _ _ _ (hop events) (hother reported)

theorem alike_bind {op : Operation σ α} {other : Operation τ α} {next : α → Operation σ β}
    {otherNext : α → Operation τ β} (hfirst : Alike Rel op other s t)
    (hnext : ∀ a after otherAfter, Rel after otherAfter →
      Alike Rel (next a) (otherNext a) after otherAfter) :
    Alike Rel (op >>= next) (other >>= otherNext) s t := by
  intro events reported
  obtain ⟨hresult, hrel⟩ := hfirst events reported
  rcases hrun : op ⟨s, events⟩ with ⟨result, after, more⟩
  rcases hotherRun : other ⟨t, reported⟩ with ⟨otherResult, otherAfter, otherMore⟩
  rw [hrun, hotherRun] at hresult hrel
  obtain rfl : result = otherResult := hresult
  cases result with
  | ok a =>
      rw [bind_apply_of_ok hrun, bind_apply_of_ok hotherRun]
      exact hnext a after otherAfter hrel more otherMore
  | error fault =>
      rw [bind_apply_of_error hrun, bind_apply_of_error hotherRun]
      exact ⟨rfl, hrel⟩

theorem alike_pure (h : Rel s t) (a : α) :
    Alike Rel (pure a : Operation σ α) (pure a : Operation τ α) s t :=
  fun _ _ => ⟨rfl, h⟩

theorem alike_report (h : Rel s t) (e : Event) : Alike Rel (report e) (report e) s t :=
  fun _ _ => ⟨rfl, h⟩

theorem alike_current_bind {next : σ → Operation σ β} {otherNext : τ → Operation τ β}
    (hnext : Alike Rel (next s) (otherNext t) s t) :
    Alike Rel (current >>= next) (current >>= otherNext) s t :=
  hnext

theorem alike_settled_bind (h : Rel s t) {result : Except Failure α} {next : α → Operation σ β}
    {otherNext : α → Operation τ β}
    (hnext : ∀ a, result = .ok a → Alike Rel (next a) (otherNext a) s t) :
    Alike Rel (settled result >>= next) (settled result >>= otherNext) s t := by
  cases result with
  | ok a => exact hnext a rfl
  | error fault => exact fun _ _ => ⟨rfl, h⟩

end LinkShelf.Operation
