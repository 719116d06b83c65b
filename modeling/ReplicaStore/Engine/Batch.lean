import ReplicaStore.Engine.Contents

/-! # Write batches

    A batch is a list of writes that an engine applies in order and as one. Main statements: two
    batches in a row are their concatenation (`applyBatch_append`), and a batch leaves every key
    that it does not name alone (`get?_applyBatch_of_not_named`). -/

namespace ReplicaStore

inductive Write where
  | put (key value : Bytes)
  /-- Removes a key; an absent one may be removed too. -/
  | delete (key : Bytes)
deriving DecidableEq, Repr

/-- Writes that are applied in order and as one. -/
abbrev Batch := List Write

def Write.key : Write → Bytes
  | .put key _ => key
  | .delete key => key

/-- What a write leaves under its key. -/
def Write.value? : Write → Option Bytes
  | .put _ value => some value
  | .delete _ => none

namespace Contents

def apply (c : Contents) : Write → Contents
  | .put key value => c.insert key value
  | .delete key => c.erase key

def applyBatch (c : Contents) (batch : Batch) : Contents :=
  batch.foldl apply c

theorem get?_apply (c : Contents) (w : Write) (k : Bytes) :
    (c.apply w).get? k = if k = w.key then w.value? else c.get? k := by
  cases w with
  | put key value => exact get?_insert c key value k
  | delete key => exact get?_erase c key k

@[simp] theorem applyBatch_nil (c : Contents) : c.applyBatch [] = c := rfl

@[simp] theorem applyBatch_cons (c : Contents) (w : Write) (batch : Batch) :
    c.applyBatch (w :: batch) = (c.apply w).applyBatch batch := rfl

/-- Two batches in a row are their concatenation. -/
theorem applyBatch_append (c : Contents) (b₁ b₂ : Batch) :
    c.applyBatch (b₁ ++ b₂) = (c.applyBatch b₁).applyBatch b₂ := by
  simp [applyBatch, List.foldl_append]

/-- A batch leaves every key that it does not name alone. -/
theorem get?_applyBatch_of_not_named {batch : Batch} {k : Bytes}
    (h : ∀ w ∈ batch, w.key ≠ k) (c : Contents) : (c.applyBatch batch).get? k = c.get? k := by
  induction batch generalizing c with
  | nil => rfl
  | cons w batch ih =>
    have hw : k ≠ w.key := fun e => h w (by simp) e.symm
    rw [applyBatch_cons, ih (fun w' hw' => h w' (by simp [hw'])), get?_apply, if_neg hw]

end Contents

end ReplicaStore
