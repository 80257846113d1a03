import LinkShelf.Operation

/-!
How operations end: what holds of the outcome and of the state after an operation, whatever was
reported before. There is one rule for each way of making an operation.
-/

namespace LinkShelf.Operation

variable {σ τ α β : Type} {s : σ}

/-- Whether the outcome of an operation on a state, and the state after it, are as described. -/
def Ends (op : Operation σ α) (s : σ) (post : Except Failure α → σ → Prop) : Prop :=
  ∀ events, post (op ⟨s, events⟩).1 (op ⟨s, events⟩).2.state

theorem Ends.execute {op : Operation σ α} {post : Except Failure α → σ → Prop}
    (hends : op.Ends s post) : post (op.execute s).1 (op.execute s).2.state :=
  hends []

theorem Ends.mono {op : Operation σ α} {post weaker : Except Failure α → σ → Prop}
    (hends : op.Ends s post) (hpost : ∀ result after, post result after → weaker result after) :
    op.Ends s weaker :=
  fun events => hpost _ _ (hends events)

theorem Ends.and {op : Operation σ α} {post other : Except Failure α → σ → Prop}
    (hends : op.Ends s post) (hother : op.Ends s other) :
    op.Ends s fun result after => post result after ∧ other result after :=
  fun events => ⟨hends events, hother events⟩

/-- An operation that succeeded is followed by the next one on the state it led to. -/
theorem bind_apply_of_ok {op : Operation σ α} {next : α → Operation σ β} {before after : Reported σ}
    {a : α} (hrun : op before = (.ok a, after)) : (op >>= next) before = next a after := by
  change ExceptT.bindCont next (op before).1 (op before).2 = _
  rw [hrun]
  rfl

/-- A failure ends a sequence. -/
theorem bind_apply_of_error {op : Operation σ α} {next : α → Operation σ β}
    {before after : Reported σ} {fault : Failure} (hrun : op before = (.error fault, after)) :
    (op >>= next) before = (.error fault, after) := by
  change ExceptT.bindCont next (op before).1 (op before).2 = _
  rw [hrun]
  rfl

theorem ends_bind {op : Operation σ α} {next : α → Operation σ β}
    {mid : Except Failure α → σ → Prop} {post : Except Failure β → σ → Prop}
    (hfirst : op.Ends s mid) (hnext : ∀ a after, mid (.ok a) after → (next a).Ends after post)
    (hfail : ∀ fault after, mid (.error fault) after → post (.error fault) after) :
    (op >>= next).Ends s post := by
  intro events
  have hmid := hfirst events
  rcases hrun : op ⟨s, events⟩ with ⟨result, after, more⟩
  rw [hrun] at hmid
  cases result with
  | ok a =>
      rw [bind_apply_of_ok hrun]
      exact hnext a after hmid more
  | error fault =>
      rw [bind_apply_of_error hrun]
      exact hfail fault after hmid

section

variable {post : Except Failure α → σ → Prop}

theorem ends_pure {a : α} : (pure a : Operation σ α).Ends s post ↔ post (.ok a) s :=
  ⟨fun h => h [], fun h _ => h⟩

theorem ends_stepped {f : σ → Except Failure α × σ} :
    (stepped f).Ends s post ↔ post (f s).1 (f s).2 :=
  ⟨fun h => h [], fun h _ => h⟩

theorem ends_change {f : σ → σ} {post : Except Failure Unit → σ → Prop} :
    (change f).Ends s post ↔ post (.ok ()) (f s) :=
  ⟨fun h => h [], fun h _ => h⟩

theorem ends_report {e : Event} {post : Except Failure Unit → σ → Prop} :
    (report e).Ends s post ↔ post (.ok ()) s :=
  ⟨fun h => h [], fun h _ => h⟩

/-- An operation on a part of a state ends as it does on that part alone. -/
theorem ends_within {part : σ → τ} {put : τ → σ → σ} {op : Operation τ α}
    (hends : op.Ends (part s) fun result after => post result (put after s)) :
    (within part put op).Ends s post :=
  fun events => hends events

/-- An operation whose outcome is a value ends where it does. -/
theorem ends_outcome {op : Operation σ α} {post : Except Failure (Except Failure α) → σ → Prop}
    (hends : op.Ends s fun result after => post (.ok result) after) : op.outcome.Ends s post :=
  fun events => hends events

end

/-- The state as it is handed on. -/
theorem ends_current_bind {next : σ → Operation σ β} {post : Except Failure β → σ → Prop} :
    (current >>= next).Ends s post ↔ (next s).Ends s post :=
  Iff.rfl

theorem ends_change_bind {f : σ → σ} {next : Unit → Operation σ β}
    {post : Except Failure β → σ → Prop} :
    (change f >>= next).Ends s post ↔ (next ()).Ends (f s) post :=
  Iff.rfl

theorem ends_throw_bind {fault : Failure} {next : α → Operation σ β}
    {post : Except Failure β → σ → Prop} :
    ((throw fault : Operation σ α) >>= next).Ends s post ↔ post (.error fault) s :=
  ⟨fun h => h [], fun h _ => h⟩

/-- What is reported does not matter to how an operation ends. -/
theorem ends_report_bind {e : Event} {next : Unit → Operation σ β}
    {post : Except Failure β → σ → Prop} (hnext : (next ()).Ends s post) :
    (report e >>= next).Ends s post :=
  fun events => hnext (events ++ [e])

theorem ends_forM_report_bind {events : List Event} {next : PUnit → Operation σ β}
    {post : Except Failure β → σ → Prop} (hnext : (next ⟨⟩).Ends s post) :
    (events.forM report >>= next).Ends s post := by
  induction events with
  | nil => exact hnext
  | cons e rest ih => exact fun reported => ih (reported ++ [e])

theorem ends_settled_bind {result : Except Failure α} {next : α → Operation σ β}
    {post : Except Failure β → σ → Prop} (hnext : ∀ a, result = .ok a → (next a).Ends s post)
    (hfail : ∀ fault, result = .error fault → post (.error fault) s) :
    (settled result >>= next).Ends s post := by
  cases result with
  | ok a => exact hnext a rfl
  | error fault => exact fun _ => hfail fault rfl

theorem ends_settled_ok_bind {a : α} {next : α → Operation σ β}
    {post : Except Failure β → σ → Prop} :
    (settled (.ok a) >>= next).Ends s post ↔ (next a).Ends s post :=
  Iff.rfl

section

variable {op : Operation σ α} {next : α → Operation σ β} {fault : Failure}

theorem ends_bind_of_error (hop : op.Ends s fun result _ => result = .error fault) :
    (op >>= next).Ends s fun result _ => result = .error fault := by
  refine ends_bind hop ?_ ?_
  · rintro a after ⟨⟩
  · rintro other after ⟨⟩
    rfl

theorem ends_bind_ne_error (hop : op.Ends s fun result _ => result ≠ .error fault)
    (hnext : ∀ a after, (next a).Ends after fun result _ => result ≠ .error fault) :
    (op >>= next).Ends s fun result _ => result ≠ .error fault := by
  refine ends_bind hop ?_ ?_
  · exact fun a after _ => hnext a after
  · rintro other after hother ⟨⟩
    exact hother rfl

end

end LinkShelf.Operation
