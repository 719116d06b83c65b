import ReplicaStore.Error

/-! # Actions

    An action on a state ends with a result or an error and leaves a state behind in either case;
    what an action did before it failed stays done. -/

namespace ReplicaStore

/-- An action on a state of type `σ` with a result of type `α`. -/
abbrev Action (σ α : Type) := ExceptT Error (StateM σ) α

namespace Action

variable {σ τ α : Type}

/-- The result and the state after an action. -/
def perform (a : Action σ α) (s : σ) : Except Error α × σ := a s

/-- An action that leaves the state alone. -/
def query (f : σ → Except Error α) : Action σ α := fun s => (f s, s)

/-- A computation that does not look at the state. -/
def lift (r : Except Error α) : Action σ α := fun s => (r, s)

/-- An action on one part of a state. -/
def onPart (get : τ → σ) (set : σ → τ → τ) (a : Action σ α) : Action τ α := fun t =>
  let (r, s) := a.perform (get t)
  (r, set s t)

end Action

end ReplicaStore
