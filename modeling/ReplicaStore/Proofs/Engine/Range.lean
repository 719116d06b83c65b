import Mathlib.Data.List.TakeWhile
import ReplicaStore.Engine.Batch
import ReplicaStore.Engine.Cursor

/-! # Walks over a range of keys

    A cursor that seeks a key and walks on while its keys stay below a bound finds the pairs
    between the two, each once, and no others. And what a batch leaves under a key, where each of
    its writes names a key of its own. -/

namespace ReplicaStore

/-! ## Sorted lists of pairs -/

/-- Keys in strictly ascending order. -/
abbrev Ascending (ps : List Pair) : Prop :=
  ps.Pairwise (fun p q => p.1 < q.1)

theorem Ascending.mem_dropWhile_iff {ps : List Pair} (h : Ascending ps) {low : Bytes} {p : Pair} :
    p ∈ ps.dropWhile (fun q => q.1 < low) ↔ p ∈ ps ∧ ¬ p.1 < low := by
  induction ps with
  | nil => simp
  | cons q ps ih =>
    obtain ⟨hq, hps⟩ := List.pairwise_cons.1 h
    -- Where the first key has reached the bound, sortedness says that all later ones have.
    by_cases hlow : q.1 < low
    · rw [List.dropWhile_cons_of_pos (by simpa using hlow), ih hps, List.mem_cons]
      constructor
      · rintro ⟨hmem, hnot⟩
        exact ⟨.inr hmem, hnot⟩
      · rintro ⟨rfl | hmem, hnot⟩
        · exact absurd hlow hnot
        · exact ⟨hmem, hnot⟩
    · rw [List.dropWhile_cons_of_neg (by simpa using hlow)]
      constructor
      · intro hmem
        refine ⟨hmem, ?_⟩
        rcases List.mem_cons.1 hmem with rfl | htail
        · exact hlow
        · intro hp
          exact hlow (Bytes.lt_trans (hq p htail) hp)
      · exact And.left

theorem Ascending.mem_takeWhile_iff {ps : List Pair} (h : Ascending ps) {high : Bytes} {p : Pair} :
    p ∈ ps.takeWhile (fun q => q.1 < high) ↔ p ∈ ps ∧ p.1 < high := by
  induction ps with
  | nil => simp
  | cons q ps ih =>
    obtain ⟨hq, hps⟩ := List.pairwise_cons.1 h
    by_cases hhigh : q.1 < high
    · rw [List.takeWhile_cons_of_pos (by simpa using hhigh), List.mem_cons, List.mem_cons, ih hps]
      constructor
      · rintro (rfl | ⟨hmem, hp⟩)
        · exact ⟨.inl rfl, hhigh⟩
        · exact ⟨.inr hmem, hp⟩
      · rintro ⟨rfl | hmem, hp⟩
        · exact .inl rfl
        · exact .inr ⟨hmem, hp⟩
    · -- The walk ends here, and sortedness says that it misses nothing behind.
      rw [List.takeWhile_cons_of_neg (by simpa using hhigh)]
      constructor
      · intro hmem
        cases hmem
      · rintro ⟨hmem, hp⟩
        rcases List.mem_cons.1 hmem with rfl | htail
        · exact absurd hp hhigh
        · exact absurd (Bytes.lt_trans (hq p htail) hp) hhigh

/-! ## Walks -/

namespace Cursor

/-- The next pair is the head of what lies behind the cursor. -/
theorem current_next {c : Cursor} {done rest : List Pair} {p : Pair}
    (hpairs : c.snapshot.pairs = done ++ p :: rest) (hcurrent : c.current = some p) :
    c.next.current = rest.head? := by
  have hsorted : Ascending (done ++ p :: rest) := hpairs ▸ c.snapshot.ascending
  obtain ⟨-, hp, hdone⟩ := List.pairwise_append.1 hsorted
  have hrest := (List.pairwise_cons.1 hp).1
  obtain ⟨k, v⟩ := p
  unfold next
  rw [hcurrent]
  show (c.snapshot.pairs.find? fun q => k < q.1) = rest.head?
  -- The cursor looks for the first greater key in all of the snapshot; what it has passed is
  -- smaller.
  have hbefore : done.find? (fun q => decide (k < q.1)) = none := by
    rw [List.find?_eq_none]
    intro q hq
    have hlt : q.1 < k := hdone q hq (k, v) (by simp)
    simpa using Bytes.lt_asymm hlt
  rw [hpairs, List.find?_append, hbefore, Option.none_or,
    List.find?_cons_of_neg (by simp)]
  cases rest with
  | nil => rfl
  | cons q rest => rw [List.find?_cons_of_pos (by simpa using hrest q (by simp)), List.head?_cons]

/-- A walk from a cursor goes through what lies behind it. -/
theorem takeWhile_eq {p : Bytes → Bool} {c : Cursor} {done rest : List Pair}
    (hpairs : c.snapshot.pairs = done ++ rest) (hcurrent : c.current = rest.head?) :
    c.takeWhile p = rest.takeWhile (fun q => p q.1) := by
  -- By induction on what lies behind the cursor; the invariant is that the cursor shows its head.
  induction rest generalizing c done with
  | nil =>
    rw [takeWhile]
    split
    · rfl
    · rename_i k v hsome
      rw [hcurrent] at hsome
      cases hsome
  | cons q rest ih =>
    rw [takeWhile]
    split
    · rename_i hnone
      rw [hcurrent] at hnone
      cases hnone
    · rename_i k v hsome
      rw [hcurrent, List.head?_cons, Option.some.injEq] at hsome
      subst hsome
      have hnext := current_next hpairs hcurrent
      have hpairs' : c.next.snapshot.pairs = (done ++ [(k, v)]) ++ rest := by simp [hpairs]
      have htail := ih hpairs' hnext
      rw [List.takeWhile_cons]
      by_cases hk : p k = true
      · rw [if_pos hk, if_pos hk, htail]
      · rw [if_neg hk, if_neg hk]

/-- The pairs from a key on. -/
theorem takeWhile_seek (c : Contents) (low : Bytes) (p : Bytes → Bool) :
    ((before c).seek low).takeWhile p =
      (c.pairs.dropWhile (fun q => q.1 < low)).takeWhile (fun q => p q.1) := by
  have hpairs : ((before c).seek low).snapshot.pairs =
      c.pairs.takeWhile (fun q => q.1 < low) ++ c.pairs.dropWhile (fun q => q.1 < low) :=
    List.takeWhile_append_dropWhile.symm
  apply takeWhile_eq hpairs
  show (c.pairs.find? fun q => ¬ q.1 < low) = _
  rw [List.find?_eq_head?_dropWhile_not]
  simp only [decide_not, Bool.not_not]

/-- A walk from a key up to a bound finds the pairs between them. -/
theorem mem_takeWhile_seek_iff {c : Contents} {low high k v : Bytes} :
    (k, v) ∈ ((before c).seek low).takeWhile (fun key => key < high) ↔
      c.get? k = some v ∧ ¬ k < low ∧ k < high := by
  have hdrop : Ascending (c.pairs.dropWhile (fun q => q.1 < low)) :=
    c.ascending.sublist (List.dropWhile_sublist _)
  rw [takeWhile_seek, hdrop.mem_takeWhile_iff, Ascending.mem_dropWhile_iff c.ascending,
    Contents.get?_eq_some_iff, and_assoc]

/-- A walk finds the keys in their order. -/
theorem ascending_takeWhile_seek (c : Contents) (low : Bytes) (p : Bytes → Bool) :
    Ascending (((before c).seek low).takeWhile p) := by
  rw [takeWhile_seek]
  exact c.ascending.sublist ((List.takeWhile_sublist _).trans (List.dropWhile_sublist _))

end Cursor

/-! ## Batches -/

namespace Contents

/-- After a batch of removals a key is absent if it was named, and else has its old value. -/
theorem get?_applyBatch_delete (c : Contents) (keys : List Bytes) (k : Bytes) :
    (c.applyBatch (keys.map .delete)).get? k = if k ∈ keys then none else c.get? k := by
  induction keys generalizing c with
  | nil => simp
  | cons key keys ih =>
    rw [List.map_cons, applyBatch_cons, ih, get?_apply]
    by_cases hmem : k ∈ keys
    · simp [hmem]
    · by_cases hkey : k = key
      · simp [hkey, Write.key, Write.value?]
      · simp [hmem, hkey, Write.key]

end Contents

end ReplicaStore
