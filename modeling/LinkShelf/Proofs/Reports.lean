import LinkShelf.Proofs.Operation

/-!
What operations report: what holds of the outcome, of the state after an operation and of the events
that it adds to those reported before. There is one rule for each way of making an operation.
-/

namespace LinkShelf.Operation

variable {σ τ α β : Type} {s : σ}

/-- Whether an operation only adds to what was reported, and its outcome, the state after it and the
events that it adds are as described. -/
def Yields (op : Operation σ α) (s : σ) (post : Except Failure α → σ → List Event → Prop) : Prop :=
  ∀ events, ∃ added, (op ⟨s, events⟩).2.events = events ++ added ∧
    post (op ⟨s, events⟩).1 (op ⟨s, events⟩).2.state added

section

variable {op : Operation σ α} {post weaker : Except Failure α → σ → List Event → Prop}

theorem Yields.execute (hop : op.Yields s post) :
    post (op.execute s).1 (op.execute s).2.state (op.execute s).2.events := by
  obtain ⟨added, hadded, hpost⟩ := hop []
  rw [List.nil_append] at hadded
  change post (op ⟨s, []⟩).1 (op ⟨s, []⟩).2.state (op ⟨s, []⟩).2.events
  rwa [hadded]

theorem Yields.mono (hop : op.Yields s post)
    (hpost : ∀ result after added, post result after added → weaker result after added) :
    op.Yields s weaker := by
  intro events
  obtain ⟨added, hadded, hends⟩ := hop events
  exact ⟨added, hadded, hpost _ _ _ hends⟩

/-- What is known of the outcome and of the state holds along with what is reported. -/
theorem Yields.and_ends {ends : Except Failure α → σ → Prop} (hop : op.Yields s post)
    (hends : op.Ends s ends) :
    op.Yields s fun result after added => ends result after ∧ post result after added := by
  intro events
  obtain ⟨added, hadded, hpost⟩ := hop events
  exact ⟨added, hadded, hends events, hpost⟩

theorem yields_pure {a : α} (hpost : post (.ok a) s []) : (pure a : Operation σ α).Yields s post :=
  fun events => ⟨[], (List.append_nil events).symm, hpost⟩

theorem yields_throw {fault : Failure} (hpost : post (.error fault) s []) :
    (throw fault : Operation σ α).Yields s post :=
  fun events => ⟨[], (List.append_nil events).symm, hpost⟩

theorem yields_stepped {f : σ → Except Failure α × σ} (hpost : post (f s).1 (f s).2 []) :
    (stepped f).Yields s post :=
  fun events => ⟨[], (List.append_nil events).symm, hpost⟩

/-- An operation whose outcome is a value reports what it does. -/
theorem yields_outcome {post : Except Failure (Except Failure α) → σ → List Event → Prop}
    (hop : op.Yields s fun result after added => post (.ok result) after added) :
    op.outcome.Yields s post :=
  fun events => hop events

theorem yields_within {part : σ → τ} {put : τ → σ → σ} {op : Operation τ α}
    (hop : op.Yields (part s) fun result after added => post result (put after s) added) :
    (within part put op).Yields s post :=
  fun events => hop events

end

theorem yields_change {f : σ → σ} {post : Except Failure Unit → σ → List Event → Prop}
    (hpost : post (.ok ()) (f s) []) : (change f).Yields s post :=
  fun events => ⟨[], (List.append_nil events).symm, hpost⟩

theorem yields_report {e : Event} {post : Except Failure Unit → σ → List Event → Prop}
    (hpost : post (.ok ()) s [e]) : (report e).Yields s post :=
  fun _ => ⟨[e], rfl, hpost⟩

section

variable {next : α → Operation σ β} {post : Except Failure β → σ → List Event → Prop}

theorem yields_bind {op : Operation σ α} {mid : Except Failure α → σ → List Event → Prop}
    (hfirst : op.Yields s mid)
    (hnext : ∀ a after added, mid (.ok a) after added →
      (next a).Yields after fun result last more => post result last (added ++ more))
    (hfail : ∀ fault after added, mid (.error fault) after added →
      post (.error fault) after added) :
    (op >>= next).Yields s post := by
  intro events
  obtain ⟨added, hadded, hmid⟩ := hfirst events
  rcases hrun : op ⟨s, events⟩ with ⟨result, after, reported⟩
  rw [hrun] at hadded hmid
  obtain rfl : reported = events ++ added := hadded
  cases result with
  | ok a =>
      rw [bind_apply_of_ok hrun]
      obtain ⟨more, hmore, hpost⟩ := hnext a after added hmid (events ++ added)
      exact ⟨added ++ more, hmore.trans (List.append_assoc ..), hpost⟩
  | error fault =>
      rw [bind_apply_of_error hrun]
      exact ⟨added, rfl, hfail fault after added hmid⟩

theorem yields_current_bind {next : σ → Operation σ β} :
    (current >>= next).Yields s post ↔ (next s).Yields s post :=
  Iff.rfl

theorem yields_change_bind {f : σ → σ} {next : Unit → Operation σ β} :
    (change f >>= next).Yields s post ↔ (next ()).Yields (f s) post :=
  Iff.rfl

theorem yields_report_bind {e : Event} {next : Unit → Operation σ β}
    (hnext : (next ()).Yields s fun result after added => post result after (e :: added)) :
    (report e >>= next).Yields s post := by
  intro events
  obtain ⟨added, hadded, hpost⟩ := hnext (events ++ [e])
  exact ⟨e :: added, hadded.trans (List.append_assoc ..), hpost⟩

theorem yields_forM_report_bind {events : List Event} {next : PUnit → Operation σ β}
    (hnext : (next ⟨⟩).Yields s fun result after added => post result after (events ++ added)) :
    (events.forM report >>= next).Yields s post := by
  induction events generalizing post with
  | nil => exact hnext
  | cons e rest ih =>
      have hrest : (rest.forM report >>= next).Yields s fun result after added =>
          post result after (e :: added) := ih hnext
      intro reported
      obtain ⟨added, hadded, hpost⟩ := hrest (reported ++ [e])
      exact ⟨e :: added, hadded.trans (List.append_assoc ..), hpost⟩

theorem yields_settled_bind {result : Except Failure α}
    (hnext : ∀ a, result = .ok a → (next a).Yields s post)
    (hfail : ∀ fault, result = .error fault → post (.error fault) s []) :
    (settled result >>= next).Yields s post := by
  cases result with
  | ok a => exact hnext a rfl
  | error fault => exact fun events => ⟨[], (List.append_nil events).symm, hfail fault rfl⟩

end

end LinkShelf.Operation
