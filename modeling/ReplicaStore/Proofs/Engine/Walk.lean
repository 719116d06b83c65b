import ReplicaStore.Proofs.Engine.Pointer

/-! # Walks of a cursor

    A cursor keeps no place in the list of the pairs: it remembers the pair that it stands at, and
    looks up the next greater key when it is moved on. Whatever its moves were, it stands where a
    pointer into that list stands, so a walk from the front or from a key on skips nothing, repeats
    nothing, and ends.

    * `Cursor.Follows.lists`: a cursor lists what lies behind the pointer that it follows.
    * `Cursor.walk_before`: where the moves of a new cursor lead it, and what it lists from the
      front and from a key on. -/

namespace ReplicaStore.Cursor

/-! ## Standing and listing -/

/-- Whether a cursor answers, asked for what it stands at, as one that stands at a given pair or at
    none. -/
def StandsAt (c : Cursor) : Option Pair → Prop
  | none => c.valid = false ∧ c.key = [] ∧ c.value = []
  | some (key, value) => c.valid = true ∧ c.key = key ∧ c.value = value

/-- Whether a cursor lists pairs, if it is moved on until it stands nowhere. -/
structure Lists (c : Cursor) (ps : List Pair) : Prop where
  /-- After as many steps it stands at the pair that comes after as many. -/
  stands : ∀ n, (c.walk (.replicate n .next)).StandsAt ps[n]?
  /-- It stands somewhere for as many steps as there are pairs. -/
  ends : ∀ n, (c.walk (.replicate n .next)).valid = true ↔ n < ps.length
  /-- The loop over it, which goes on while it stands somewhere, collects them. -/
  collected : c.rest = ps

variable {c : Cursor} {p : Pointer}

theorem standsAt_current (c : Cursor) : c.StandsAt c.current := by
  unfold StandsAt valid key value
  cases c.current with
  | none => exact ⟨rfl, rfl, rfl⟩
  | some q => exact ⟨rfl, rfl, rfl⟩

theorem next_of_current_eq_none (h : c.current = none) : c.next = c := by
  unfold next
  rw [h]

/-! ## Steps -/

theorem snapshot_move (c : Cursor) (m : Move) : (c.move m).snapshot = c.snapshot := by
  cases m with
  | first => exact snapshot_seekToFirst c
  | seek key => exact snapshot_seek c key
  | next => exact snapshot_next c

/-- A seek forgets where the cursor stood. -/
theorem move_eq_of_ne_next {m : Move} (h : m ≠ .next) :
    c.move m = (before c.snapshot).move m := by
  cases m with
  | first => rfl
  | seek key => rfl
  | next => exact absurd rfl h

/-! ## Runs -/

theorem snapshot_walk (c : Cursor) (moves : List Move) :
    (c.walk moves).snapshot = c.snapshot := by
  -- No move changes the snapshot, by induction on the moves.
  induction moves generalizing c with
  | nil => rfl
  | cons m moves ih => exact (ih (c.move m)).trans (snapshot_move c m)

/-- After as many steps a cursor stands at the pair that lies as many places behind. -/
theorem Follows.current_walk_next (h : c.Follows p) (n : Nat) :
    (c.walk (.replicate n .next)).current = p.left[n]? := by
  -- A step drops the first pair that is left, so the pair that is looked for comes one place
  -- nearer.
  induction n generalizing c p with
  | zero => exact h.current.trans List.head?_eq_getElem?
  | succ n ih =>
    calc (c.next.walk (.replicate n .next)).current
      _ = p.left.tail[n]? := ih (h.move .next)
      _ = p.left[n + 1]? := List.getElem?_tail

/-- A cursor lists what lies behind the pointer that it follows. -/
theorem Follows.lists (h : c.Follows p) : c.Lists p.left := by
  refine ⟨fun n => ?_, fun n => ?_, ?_⟩
  · rw [← h.current_walk_next n]
    exact standsAt_current _
  · show (c.walk (.replicate n .next)).current.isSome = true ↔ n < p.left.length
    rw [h.current_walk_next n, isSome_getElem?]
  · -- The loop runs over the end of the list that starts with the current pair.
    obtain ⟨done, hdone⟩ := h.behind
    rw [rest, takeWhile_eq (h.pairs.trans hdone) h.current]
    exact List.takeWhile_eq_self_iff.2 fun _ _ => rfl

/-! ## New cursors -/

/-- A cursor stands, wherever it was moved, where a pointer into the pairs stands that was moved
    alike; where it stands nowhere a step leaves it there, and a seek leads it where it leads a new
    cursor. From the front it lists all pairs that look-ups find, and from a key on those that do
    not come before the key, each once in the order of the keys. -/
theorem walk_before (c : Contents) (moves : List Move) :
    let cursor := (before c).walk moves
    let pointer := (Pointer.before c.pairs).walk moves
    cursor.snapshot = c ∧ cursor.Follows pointer ∧ cursor.StandsAt pointer.current ∧
      (pointer.current = none → cursor.next = cursor) ∧
      (∀ m ≠ .next, cursor.move m = (before c).move m) ∧
      (∃ all, cursor.seekToFirst.Lists all ∧ Ascending all ∧
        ∀ k v, (k, v) ∈ all ↔ c.get? k = some v) ∧
      ∀ low, ∃ found, (cursor.seek low).Lists found ∧ Ascending found ∧
        ∀ k v, (k, v) ∈ found ↔ c.get? k = some v ∧ ¬ k < low := by
  intro cursor pointer
  have hsnapshot : cursor.snapshot = c := snapshot_walk (before c) moves
  have hfollows : cursor.Follows pointer := (follows_before c).follows_walk moves
  -- The pointer walks over the pairs of the contents, whatever the moves are.
  have hpairs : pointer.pairs = c.pairs := by rw [← hfollows.pairs, hsnapshot]
  refine ⟨hsnapshot, hfollows, ?_, ?_, ?_, ?_, ?_⟩
  · rw [← hfollows.current]
    exact standsAt_current cursor
  · intro hnone
    exact next_of_current_eq_none (hfollows.current.trans hnone)
  · intro m hm
    rw [move_eq_of_ne_next hm, hsnapshot]
  · have hlists : cursor.seekToFirst.Lists pointer.pairs := (hfollows.move .first).lists
    rw [hpairs] at hlists
    refine ⟨c.pairs, hlists, c.ascending, fun k v => ?_⟩
    exact Contents.get?_eq_some_iff.symm
  · intro low
    have hlists : (cursor.seek low).Lists (pointer.pairs.dropWhile fun q => q.1 < low) :=
      (hfollows.move (.seek low)).lists
    rw [hpairs] at hlists
    refine ⟨_, hlists, c.ascending.sublist (List.dropWhile_sublist _), fun k v => ?_⟩
    rw [Ascending.mem_dropWhile_iff c.ascending, Contents.get?_eq_some_iff]

/-- The empty key is one of the keys, and a key comes before those that it begins. -/
example :
    let c := ((Contents.empty.insert [7] [1]).insert [7, 0] [2]).insert [] [3]
    (before c).seekToFirst.key = [] ∧ (before c).seekToFirst.valid = true ∧
      ((before c).walk [.seek [7], .next]).current = some ([7, 0], [2]) ∧
      ((before c).walk [.seek [7], .next, .next, .next, .first, .next]).key = [7] := by
  decide

end ReplicaStore.Cursor
