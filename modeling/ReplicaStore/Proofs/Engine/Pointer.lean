import ReplicaStore.Proofs.Engine.Range

/-! # Cursors as pointers

    A cursor looks its next pair up anew at every move. It goes where a pointer into the list of
    the pairs goes: to the front, to the first pair whose key is not below a given one, and to the
    pair behind.

    * `Pointer`: a list of pairs, and a place in it.
    * `Cursor.Follows.move`: a cursor that stands where a pointer stands follows its moves.
    * `Cursor.Follows.follows_walk`: it follows them one after another. -/

namespace ReplicaStore

/-- A move over the pairs of an engine. -/
inductive Move where
  /-- To the least key. -/
  | first
  /-- To the least key that is not below one. -/
  | seek (key : Bytes)
  /-- To the next key. -/
  | next
deriving DecidableEq, Repr

def Cursor.move (c : Cursor) : Move → Cursor
  | .first => c.seekToFirst
  | .seek key => c.seek key
  | .next => c.next

def Cursor.walk (c : Cursor) (moves : List Move) : Cursor :=
  moves.foldl move c

/-! ## Pointers -/

/-- A place in a list of pairs. -/
structure Pointer where
  pairs : List Pair
  /-- The pairs from the one that is pointed at on; there are none where it points at none. -/
  left : List Pair
deriving DecidableEq, Repr

namespace Pointer

/-- The pointer that points at nothing yet. -/
def before (pairs : List Pair) : Pointer := ⟨pairs, []⟩

def current (p : Pointer) : Option Pair := p.left.head?

def move (p : Pointer) : Move → Pointer
  | .first => ⟨p.pairs, p.pairs⟩
  | .seek key => ⟨p.pairs, p.pairs.dropWhile (fun q => q.1 < key)⟩
  | .next => ⟨p.pairs, p.left.tail⟩

def walk (p : Pointer) (moves : List Move) : Pointer :=
  moves.foldl move p

end Pointer

/-! ## Following a pointer -/

namespace Cursor

/-- Whether a cursor stands where a pointer into its pairs stands. -/
structure Follows (c : Cursor) (p : Pointer) : Prop where
  pairs : c.snapshot.pairs = p.pairs
  current : c.current = p.current
  /-- What lies behind the pointer is the end of the list. -/
  behind : ∃ done, p.pairs = done ++ p.left

variable {c : Cursor} {p : Pointer}

theorem follows_before (contents : Contents) :
    (before contents).Follows (.before contents.pairs) :=
  ⟨rfl, rfl, contents.pairs, (List.append_nil _).symm⟩

/-- A cursor follows its pointer wherever it is moved. -/
theorem Follows.move (h : c.Follows p) (m : Move) : (c.move m).Follows (p.move m) := by
  obtain ⟨hpairs, hcurrent, done, hdone⟩ := h
  cases m with
  | first =>
    refine ⟨hpairs, ?_, [], rfl⟩
    show c.snapshot.pairs.head? = p.pairs.head?
    rw [hpairs]
  | seek key =>
    refine ⟨hpairs, ?_, _, List.takeWhile_append_dropWhile.symm⟩
    show (c.snapshot.pairs.find? fun q => ¬ q.1 < key) = (p.pairs.dropWhile _).head?
    rw [hpairs, List.find?_eq_head?_dropWhile_not]
    simp only [decide_not, Bool.not_not]
  | next =>
    have hsnapshot : (c.move .next).snapshot.pairs = p.pairs := by
      rw [← hpairs]
      exact congrArg Contents.pairs (snapshot_next c)
    obtain ⟨pairs, left⟩ := p
    cases left with
    | nil =>
      -- A cursor that stands nowhere stays there.
      have hnone : c.current = none := hcurrent
      refine ⟨hsnapshot, ?_, done, hdone⟩
      show c.next.current = none
      unfold next
      rw [hnone]
      exact hnone
    | cons q left =>
      refine ⟨hsnapshot, current_next (hpairs.trans hdone) hcurrent, done ++ [q], ?_⟩
      rw [List.append_assoc]
      exact hdone

theorem Follows.follows_walk (h : c.Follows p) (moves : List Move) :
    (c.walk moves).Follows (p.walk moves) := by
  induction moves generalizing c p with
  | nil => exact h
  | cons m moves ih => exact ih (h.move m)

end Cursor

end ReplicaStore
