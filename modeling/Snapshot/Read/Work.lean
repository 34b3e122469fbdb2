import Snapshot.Read.Error
import Snapshot.Read.Event

/-!
# Work that can fail

`Work σ α` is work on a state of type `σ` that yields a value or fails.  Either
way it leaves a state behind, so that what was done before a failure stays
visible, and the events that were logged on the way.
-/

namespace Snapshot

/-- What comes of a piece of work. -/
structure Outcome (σ α : Type) where
  result : Except ReadError α
  state : σ
  log : List Event

/-- Work on a state. -/
def Work (σ α : Type) := σ → Outcome σ α

namespace Work

variable {σ τ α β : Type}

/-- The outcome of the work on a given state. -/
def run (work : Work σ α) (state : σ) : Outcome σ α := work state

instance : Monad (Work σ) where
  pure a := fun state => ⟨.ok a, state, []⟩
  bind work next := fun state =>
    let first := work state
    match first.result with
    | .error error => ⟨.error error, first.state, first.log⟩
    | .ok a =>
      let second := next a first.state
      ⟨second.result, second.state, first.log ++ second.log⟩

/-- The present state. -/
def state : Work σ σ := fun s => ⟨.ok s, s, []⟩

/-- Changes the state. -/
def change (f : σ → σ) : Work σ Unit := fun s => ⟨.ok (), f s, []⟩

/-- Logs events. -/
def note (events : List Event) : Work σ Unit := fun s => ⟨.ok (), s, events⟩

/-- Fails. -/
def fail (error : ReadError) : Work σ α := fun s => ⟨.error error, s, []⟩

/-- Goes on with a value, or fails with the error in its place. -/
def ofExcept (value : Except ReadError α) : Work σ α := fun s => ⟨value, s, []⟩

/-- Goes on with what storage gave. -/
def ofStorage (value : Except StorageFault α) : Work σ α :=
  ofExcept (value.mapError .storage)

/-- Goes on with what was decoded. -/
def ofFault (value : Except Fault α) : Work σ α :=
  ofExcept (value.mapError .fault)

/-- Work on a part of the state. -/
def focus (get : σ → τ) (set : τ → σ → σ) (work : Work τ α) : Work σ α := fun s =>
  let outcome := work (get s)
  ⟨outcome.result, set outcome.state s, outcome.log⟩

@[simp] theorem run_pure (a : α) (s : σ) : (pure a : Work σ α).run s = ⟨.ok a, s, []⟩ := rfl

/-- After a failure nothing more is done. -/
theorem run_bind (work : Work σ α) (next : α → Work σ β) (s : σ) :
    (work >>= next).run s =
      match (work.run s).result with
      | .error error => ⟨.error error, (work.run s).state, (work.run s).log⟩
      | .ok a =>
        ⟨((next a).run (work.run s).state).result, ((next a).run (work.run s).state).state,
          (work.run s).log ++ ((next a).run (work.run s).state).log⟩ := rfl

end Work

end Snapshot
