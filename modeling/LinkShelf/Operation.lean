import LinkShelf.Failure
import LinkShelf.Journal.Event

/-!
Operations: steps on a state that report events and may fail. What an operation changed and reported
before it failed stays changed and reported.
-/

namespace LinkShelf

/-- A state, and the events that were reported on the way to it. -/
structure Reported (σ : Type) where
  state : σ
  events : List Event

/-- A step on a state that reports events and may fail. -/
abbrev Operation (σ α : Type) := ExceptT Failure (StateM (Reported σ)) α

namespace Operation

/-- The outcome of an operation on a state, with the state after it and what it reported. -/
def execute (op : Operation σ α) (s : σ) : Except Failure α × Reported σ := op ⟨s, []⟩

/-- The state as it is. -/
def current : Operation σ σ := fun s => (.ok s.state, s)

/-- The state changed to another one. -/
def change (f : σ → σ) : Operation σ Unit := fun s => (.ok (), { s with state := f s.state })

def report (e : Event) : Operation σ Unit := fun s => (.ok (), { s with events := s.events ++ [e] })

/-- An outcome that does not depend on the state. -/
def settled : Except Failure α → Operation σ α
  | .ok a => pure a
  | .error f => throw f

/-- An outcome with the state after it. -/
def stepped (f : σ → Except Failure α × σ) : Operation σ α := fun s =>
  let (result, state) := f s.state
  (result, { s with state })

/-- The outcome of an operation as a value: it does not fail. -/
def outcome (op : Operation σ α) : Operation σ (Except Failure α) := fun s =>
  let (result, after) := op s
  (.ok result, after)

/-- An operation on a part of a state. -/
def within (part : σ → τ) (put : τ → σ → σ) (op : Operation τ α) : Operation σ α := fun s =>
  let (result, after) := op ⟨part s.state, s.events⟩
  (result, ⟨put after.state s.state, after.events⟩)

end Operation

end LinkShelf
