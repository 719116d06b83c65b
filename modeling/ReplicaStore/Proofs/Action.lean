import ReplicaStore.Action

/-! # Running actions

    What an action does step by step. A result that is there is handed on; a failure ends the
    action, and the state stays as the failing step left it. -/

namespace ReplicaStore

theorem ok_bind {ε α β : Type} (a : α) (f : α → Except ε β) : (Except.ok a >>= f) = f a := rfl

theorem error_bind {ε α β : Type} (e : ε) (f : α → Except ε β) :
    (Except.error e >>= f) = Except.error e := rfl

theorem mapError_ok {ε ε' α : Type} (f : ε → ε') (a : α) :
    (Except.ok a : Except ε α).mapError f = .ok a := rfl

/-- What succeeds has succeeded step by step. -/
theorem exists_of_bind_eq_ok {ε α β : Type} {r : Except ε α} {f : α → Except ε β} {b : β}
    (h : (r >>= f) = .ok b) : ∃ a, r = .ok a ∧ f a = .ok b := by
  cases r with
  | error e =>
    rw [error_bind] at h
    cases h
  | ok a => exact ⟨a, rfl, h⟩

/-- What fails has failed in its first step, or behind it. -/
theorem bind_eq_error_iff {ε α β : Type} {r : Except ε α} {f : α → Except ε β} {e : ε} :
    (r >>= f) = .error e ↔ r = .error e ∨ ∃ a, r = .ok a ∧ f a = .error e := by
  cases r with
  | error e' =>
    rw [error_bind]
    simp only [Except.error.injEq, reduceCtorEq, false_and, exists_false, or_false]
  | ok a =>
    rw [ok_bind]
    simp only [Except.ok.injEq, reduceCtorEq, false_or, exists_eq_left']

theorem eq_ok_of_mapError {ε ε' α : Type} {f : ε → ε'} {r : Except ε α} {a : α}
    (h : r.mapError f = .ok a) : r = .ok a := by
  cases r with
  | error e => cases h
  | ok a' =>
    rw [mapError_ok, Except.ok.injEq] at h
    rw [h]

namespace Action

variable {σ α β : Type}

theorem perform_bind_of_ok {a : Action σ α} {f : α → Action σ β} {s s' : σ} {x : α}
    (h : a.perform s = (.ok x, s')) : (a >>= f).perform s = (f x).perform s' := by
  unfold perform at h ⊢
  simp only [bind, ExceptT.bind, ExceptT.mk, ExceptT.bindCont, StateT.bind, h]

theorem perform_bind_of_error {a : Action σ α} {f : α → Action σ β} {s s' : σ} {e : Error}
    (h : a.perform s = (.error e, s')) : (a >>= f).perform s = (.error e, s') := by
  unfold perform at h ⊢
  simp only [bind, ExceptT.bind, ExceptT.mk, ExceptT.bindCont, StateT.bind, h]
  rfl

/-- What succeeds has succeeded step by step. -/
theorem exists_of_perform_bind_eq_ok {a : Action σ α} {f : α → Action σ β} {s s' : σ} {y : β}
    (h : (a >>= f).perform s = (.ok y, s')) :
    ∃ x t, a.perform s = (.ok x, t) ∧ (f x).perform t = (.ok y, s') := by
  cases ha : a.perform s with
  | mk r t =>
    cases r with
    | error e =>
      rw [perform_bind_of_error ha] at h
      cases h
    | ok x =>
      rw [perform_bind_of_ok ha] at h
      exact ⟨x, t, rfl, h⟩

/-- What relates the states before and after each of two steps relates those before and after both,
    whether the first one succeeds or not. -/
theorem rel_perform_bind {R : σ → σ → Prop} (htrans : ∀ {s t u}, R s t → R t u → R s u)
    {a : Action σ α} {f : α → Action σ β} {s : σ} (ha : R s (a.perform s).2)
    (hf : ∀ x t, R t ((f x).perform t).2) : R s ((a >>= f).perform s).2 := by
  cases hperform : a.perform s with
  | mk r t =>
    rw [hperform] at ha
    cases r with
    | error e =>
      rw [perform_bind_of_error hperform]
      exact ha
    | ok x =>
      rw [perform_bind_of_ok hperform]
      exact htrans ha (hf x t)

end Action

end ReplicaStore
