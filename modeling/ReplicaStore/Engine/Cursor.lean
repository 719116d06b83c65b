import ReplicaStore.Engine.Contents

/-! # Cursors

    A cursor walks the contents that an engine had when the cursor was made, in ascending order of
    the keys. It has no position before its first move and after the last pair; each move is a
    look-up of a neighbour in the order, so later writes to the engine change nothing. -/

namespace ReplicaStore

/-- A position in a snapshot of an engine's contents. -/
structure Cursor where
  /-- The contents when the cursor was made. -/
  snapshot : Contents
  /-- The pair that the cursor stands at, if it stands at one. -/
  current : Option Pair

namespace Cursor

/-- A cursor without a position, before its first move. -/
def before (c : Contents) : Cursor := ⟨c, none⟩

/-- Whether the cursor stands at a pair. -/
def valid (c : Cursor) : Bool := c.current.isSome

/-- The key that the cursor stands at; empty where it stands at none. -/
def key (c : Cursor) : Bytes := (c.current.map Prod.fst).getD []

/-- The value that the cursor stands at; empty where it stands at none. -/
def value (c : Cursor) : Bytes := (c.current.map Prod.snd).getD []

/-! ## Moves -/

/-- To the pair of the least key. -/
def seekToFirst (c : Cursor) : Cursor :=
  { c with current := c.snapshot.first? }

/-- To the pair of the least key that is not below `k`. -/
def seek (c : Cursor) (k : Bytes) : Cursor :=
  { c with current := c.snapshot.firstFrom? k }

/-- To the next pair; nowhere from nowhere. -/
def next (c : Cursor) : Cursor :=
  match c.current with
  | none => c
  | some (k, _) => { c with current := c.snapshot.firstAfter? k }

@[simp] theorem snapshot_seekToFirst (c : Cursor) : c.seekToFirst.snapshot = c.snapshot := rfl

@[simp] theorem snapshot_seek (c : Cursor) (k : Bytes) : (c.seek k).snapshot = c.snapshot := rfl

@[simp] theorem snapshot_next (c : Cursor) : c.next.snapshot = c.snapshot := by
  unfold next
  split <;> rfl

/-! ## Walks -/

/-- How many pairs lie at or after the cursor. -/
def remaining (c : Cursor) : Nat :=
  match c.current with
  | none => 0
  | some (k, _) => (c.snapshot.pairs.filter (fun p => k < p.1)).length + 1

theorem remaining_next_lt {c : Cursor} {p : Pair} (h : c.current = some p) :
    c.next.remaining < c.remaining := by
  obtain ⟨k, v⟩ := p
  unfold next remaining
  simp only [h]
  split
  · omega
  · rename_i k' v' hnext
    have hfound : (k', v') ∈ c.snapshot.pairs := List.mem_of_find?_eq_some hnext
    have hlt : k < k' := by simpa using List.find?_some hnext
    have hsub : ∀ q ∈ c.snapshot.pairs, k' < q.1 → k < q.1 := fun q _ hq => Bytes.lt_trans hlt hq
    -- The next key itself is above `k` but not above itself, so it is one that is counted no more.
    have hcount : (c.snapshot.pairs.filter (fun q => k' < q.1)).length <
        (c.snapshot.pairs.filter (fun q => k < q.1)).length := by
      generalize c.snapshot.pairs = ps at hfound hsub
      clear hnext
      induction ps with
      | nil => simp at hfound
      | cons q qs ih =>
        have hle : ∀ rs : List Pair, (rs.filter (fun r => k' < r.1)).length ≤
            (rs.filter (fun r => k < r.1)).length := fun rs => by
          simp only [← List.countP_eq_length_filter]
          refine List.countP_mono_left fun r _ hr => ?_
          simp only [decide_eq_true_eq] at hr ⊢
          exact Bytes.lt_trans hlt hr
        rcases List.mem_cons.1 hfound with rfl | hmem
        · have := hle qs
          simp [hlt, Bytes.lt_irrefl]
          omega
        · have := ih hmem fun r hr => hsub r (by simp [hr])
          by_cases hq : k' < q.1
          · simp [hq, Bytes.lt_trans hlt hq]
            omega
          · by_cases hq' : k < q.1
            · simp [hq, hq']
              omega
            · simp [hq, hq']
              omega
    omega

/-- The pairs from the cursor on, as long as their keys satisfy `p`. -/
def takeWhile (p : Bytes → Bool) (c : Cursor) : List Pair :=
  match h : c.current with
  | none => []
  | some (k, v) =>
    have : c.next.remaining < c.remaining := remaining_next_lt h
    if p k then (k, v) :: takeWhile p c.next else []
termination_by c.remaining

/-- All pairs from the cursor on. -/
def rest (c : Cursor) : List Pair :=
  c.takeWhile fun _ => true

end Cursor

end ReplicaStore
