import Mathlib.Data.List.Perm.Basic
import ReplicaStore.Engine.Host
import ReplicaStore.Proofs.Engine.Pointer

/-! # What a reader shows

    A reader is moved by who holds it, and asked whether it stands at a pair, for the key and the
    value there, and whether it failed. What it shows depends on the contents that the engine had
    when the reader was made and on its moves since then, and on nothing else: it shows what a
    pointer into the list of those pairs shows.

    * `Sight`: what a reader shows.
    * `sight_walk_make`: a reader shows what a pointer shows.
    * `reader?_foldl`: a reader that only its own moves touch goes where these lead it. -/

namespace ReplicaStore

/-! ## Sights -/

/-- What a reader answers, asked for everything. -/
structure Sight where
  valid : Bool
  key : Bytes
  value : Bytes
  status : Except Error Unit

variable {f : Fault}

/-- What a reader shows where it stands. -/
def Reader.sight (f : Fault) (r : Reader) : Sight :=
  ⟨r.cursor.valid, r.cursor.key, r.cursor.value, Reader.status f⟩

def Reader.walk (r : Reader) (moves : List Move) : Reader :=
  moves.foldl (fun r m => r.move fun c => c.move m) r

theorem Reader.walk_append (r : Reader) (moves moves' : List Move) :
    r.walk (moves ++ moves') = (r.walk moves).walk moves' :=
  List.foldl_append

namespace Pointer

/-- What is to be seen at a place: its pair, if there is one, and no failure unless it is forced. -/
def sight (f : Fault) (p : Pointer) : Sight :=
  let status := if f.fails .status then .error (.engine Call.status.failure) else .ok ()
  match p.current with
  | none => ⟨false, [], [], status⟩
  | some (key, value) => ⟨true, key, value, status⟩

end Pointer

/-! ## Readers and pointers -/

theorem Reader.status_eq (f : Fault) :
    Reader.status f =
      if f.fails .status then .error (.engine Call.status.failure) else .ok () := by
  unfold Reader.status Fault.status Fault.check
  split <;> rfl

/-- A reader shows what a pointer shows that its cursor follows. -/
theorem Cursor.Follows.sight_eq {r : Reader} {p : Pointer} (h : r.cursor.Follows p) (f : Fault) :
    r.sight f = p.sight f := by
  unfold Reader.sight Pointer.sight Cursor.valid Cursor.key Cursor.value
  rw [h.current, Reader.status_eq]
  -- What is shown depends on the place only, not on the way there.
  cases p.current with
  | none => rfl
  | some q => rfl

theorem Reader.cursor_walk (r : Reader) (moves : List Move) :
    (r.walk moves).cursor = r.cursor.walk moves := by
  induction moves generalizing r with
  | nil => rfl
  | cons m moves ih => exact ih (r.move fun c => c.move m)

theorem Cursor.Follows.walk {r : Reader} {p : Pointer} (h : r.cursor.Follows p)
    (moves : List Move) : (r.walk moves).cursor.Follows (p.walk moves) := by
  rw [Reader.cursor_walk]
  exact h.follows_walk moves

/-- A reader of contents shows, wherever it is moved, what a pointer into their pairs shows. -/
theorem sight_walk_make (h : Host) (id : EngineId) (moves : List Move) (f : Fault) :
    ((Reader.make h id).1.walk moves).sight f =
      ((Pointer.before (h.contents id).pairs).walk moves).sight f :=
  ((Cursor.follows_before (h.contents id)).walk (r := (Reader.make h id).1) moves).sight_eq f

/-! ## Readers among other things -/

theorem filterMap_cons_eq_append {α β : Type} (g : α → Option β) (x : α) (xs : List α) :
    (x :: xs).filterMap g = (g x).toList ++ xs.filterMap g := by
  cases hx : g x with
  | none => rw [List.filterMap_cons_none hx]; rfl
  | some y => rw [List.filterMap_cons_some hx]; rfl

/-- Putting another element in the place of one. -/
theorem perm_filterMap_set {α β : Type} {xs : List α} {n : Nat} {x : α}
    (hx : xs[n]? = some x) (y : α) (g : α → Option β) :
    ((g y).toList ++ xs.filterMap g).Perm ((g x).toList ++ (xs.set n y).filterMap g) := by
  obtain ⟨hlt, hget⟩ := List.getElem?_eq_some_iff.1 hx
  have hlt' : n < (xs.set n y).length := by
    rw [List.length_set]
    exact hlt
  -- Either list is the element at the place, and what both have besides.
  have hbefore := (List.getElem_cons_eraseIdx_perm hlt).symm.filterMap g
  have hafter := (List.getElem_cons_eraseIdx_perm hlt').filterMap g
  rw [hget, filterMap_cons_eq_append] at hbefore
  rw [List.getElem_set_self, List.eraseIdx_set_eq, filterMap_cons_eq_append] at hafter
  have hswap : ((g y).toList ++ ((g x).toList ++ (xs.eraseIdx n).filterMap g)).Perm
      ((g x).toList ++ ((g y).toList ++ (xs.eraseIdx n).filterMap g)) := by
    rw [← List.append_assoc, ← List.append_assoc]
    exact List.perm_append_comm.append_right _
  exact (hbefore.append_left _).trans (hswap.trans (hafter.append_left _))

section Places

variable {α β : Type} {xs : List (Option α)} {n : Nat} {x : α}

/-- What is in a place stays there when another place is added. -/
theorem join_getElem?_append (hx : xs[n]?.join = some x) (y : Option α) :
    (xs ++ [y])[n]?.join = some x := by
  obtain ⟨hlt, -⟩ := List.getElem?_eq_some_iff.1 (Option.join_eq_some_iff.1 hx)
  rw [List.getElem?_append_left hlt, hx]

theorem join_getElem?_set (hx : xs[n]?.join = some x) (y : Option α) :
    (xs.set n y)[n]?.join = y := by
  obtain ⟨hlt, -⟩ := List.getElem?_eq_some_iff.1 (Option.join_eq_some_iff.1 hx)
  rw [List.getElem?_set_self hlt]
  rfl

theorem join_getElem?_set_of_ne {k : Nat} (hne : k ≠ n) (y : Option α) :
    (xs.set k y)[n]?.join = xs[n]?.join := by
  rw [List.getElem?_set_ne hne]

theorem join_getElem?_map (hx : xs[n]?.join = some x) (g : α → β) :
    (xs.map (Option.map g))[n]?.join = some (g x) := by
  rw [List.getElem?_map, Option.join_eq_some_iff.1 hx]
  rfl

end Places

/-- A reader that nothing touches but its own moves, as long as it is not dropped, goes where these
    lead it, whatever happens besides. -/
theorem reader?_foldl {σ ε : Type} {step : σ → ε → σ} {reader? : σ → Option Reader}
    {moved? : ε → Option Move} {drops : ε → Prop}
    (hstep : ∀ s r e, reader? s = some r → ¬ drops e →
      reader? (step s e) = some (r.walk (moved? e).toList))
    {events : List ε} (hkept : ∀ e ∈ events, ¬ drops e) {s : σ} {r : Reader}
    (hr : reader? s = some r) :
    reader? (events.foldl step s) = some (r.walk (events.filterMap moved?)) := by
  -- By induction on the events; where the reader stands is the invariant.
  induction events generalizing s r with
  | nil => exact hr
  | cons e events ih =>
    have hfirst := hstep s r e hr (hkept e List.mem_cons_self)
    have hrest := ih (fun e' hmem => hkept e' (List.mem_cons_of_mem e hmem)) hfirst
    rw [List.foldl_cons, hrest, filterMap_cons_eq_append, Reader.walk_append]

end ReplicaStore
