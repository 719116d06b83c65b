import ReplicaStore.Proofs.Log.ReadBack

/-! # Lists of slots

    What an operation log is about, without an engine: a list of slots, each with its entry or,
    where garbage was collected, with none. The last slot, if there is one, has its entry.

    The operations here say what each operation of the log answers, and which slots it leaves. -/

namespace ReplicaStore

/-- The slots of a log: entries, or nothing where garbage was collected. -/
abbrev SlotList := List (Option Entry)

namespace SlotList

/-- The entry of a slot; past the end there is none. -/
def slot? (A : SlotList) (slot : Nat) : Option Entry :=
  A[slot]?.join

/-- Whether the last slot, if there is one, has its entry. -/
def EndsInEntry (A : SlotList) : Prop :=
  A ≠ [] → ∃ e, A.slot? (A.length - 1) = some e

def lastTerm (A : SlotList) : Int64 :=
  match A.slot? (A.length - 1) with
  | some e => e.term
  | none => OperationLog.noTerm

/-! ## Operations -/

def readSlot (A : SlotList) (index : Int) : Except Error (Option Entry) :=
  if index < 0 then .error (.negativeSlot index)
  else if A.length ≤ index then .ok none
  else .ok (A.slot? index.toNat)

/-- The entries at the end. -/
def append (A : SlotList) (entries : List Entry) : SlotList :=
  A ++ entries.map some

/-- Keeps the slots up to an index; below zero that is none. Behind the greatest index no slot can
    be told, and no list is long enough. -/
def truncate (A : SlotList) (index : Int) : Except Error SlotList :=
  let n := (max index (-1) + 1).toNat
  if OperationLog.maxLength < n then .error (.negativeSlot OperationLog.wrappedLength)
  else if A.length < n then .error (.cutBeyondEnd index A.length)
  else if n = A.length then .ok A
  else if n = 0 then .ok []
  else if A.slot? (n - 1) = none then .error (.missingSlot (n - 1))
  else .ok (A.take n)

/-- Empties a slot, but not the last one, and says whether an entry was there. -/
def removeSlot (A : SlotList) (index : Int) : Except Error (Bool × SlotList) :=
  if index < 0 then .error (.negativeSlot index)
  else if index = A.length - 1 then .error (.lastSlot index)
  else .ok ((A.slot? index.toNat).isSome, A.set index.toNat none)

/-- How many slots are below an index, the last one left out. -/
def boundBelow (A : SlotList) (index : Int) : Nat :=
  (min index ((A.length : Int) - 1)).toNat

/-- Empties every slot below an index but the last one, and says how many entries were there. -/
def removeBefore (A : SlotList) (index : Int) : Nat × SlotList :=
  let bound := A.boundBelow index
  ((A.take bound).countP Option.isSome, List.replicate bound none ++ A.drop bound)

/-! ## Requests -/

/-- What can be asked of an open log. -/
inductive Request where
  | append (e : Entry)
  | appendBatch (entries : List Entry)
  | readSlot (index : Int64)
  | truncate (index : Int64)
  | removeSlot (index : Int64)
  | removeBefore (index : Int64)

def Request.entries : Request → List Entry
  | .append e => [e]
  | .appendBatch entries => entries
  | _ => []

/-- What a log tells where it does what it was asked for. -/
inductive Reply where
  | done
  | entry (e? : Option Entry)
  | found (present : Bool)
  | removed (count : Nat)
deriving DecidableEq, Repr

/-- The answer to a request, and the list after it. -/
def ask (A : SlotList) : Request → Except Error Reply × SlotList
  | .append e => (.ok .done, A.append [e])
  | .appendBatch entries => (.ok .done, A.append entries)
  | .readSlot index => ((A.readSlot index.toInt).map .entry, A)
  | .truncate index =>
    match A.truncate index.toInt with
    | .ok B => (.ok .done, B)
    | .error e => (.error e, A)
  | .removeSlot index =>
    match A.removeSlot index.toInt with
    | .ok (present, B) => (.ok (.found present), B)
    | .error e => (.error e, A)
  | .removeBefore index =>
    let (count, B) := A.removeBefore index.toInt
    (.ok (.removed count), B)

/-- Whether a log can carry a request out: records can hold what it appends, and the length record
    can hold the length that it leads to. -/
structure Request.Fits (r : Request) (A : SlotList) : Prop where
  entries : ∀ e ∈ r.entries, e.Fits
  length : A.length + r.entries.length ≤ OperationLog.maxLength

instance (r : Request) (A : SlotList) : Decidable (r.Fits A) :=
  decidable_of_iff
    ((∀ e ∈ r.entries, e.Fits) ∧ A.length + r.entries.length ≤ OperationLog.maxLength)
    ⟨fun ⟨entries, length⟩ => ⟨entries, length⟩, fun ⟨entries, length⟩ => ⟨entries, length⟩⟩

/-- A cut is refused for its index, or for the slot that would be the last one and has no entry. -/
theorem kind_of_truncate {A : SlotList} {index : Int} {e : Error}
    (h : A.truncate index = .error e) :
    e.kind = .invalidArgument ∨
      e.kind = .dataLoss ∧ ∃ slot, e = .missingSlot slot ∧ A.slot? slot = none := by
  unfold truncate at h
  simp only at h
  -- The branches in their order: behind the greatest index, beyond the end, and the four below it.
  split at h
  · cases h
    exact .inl rfl
  split at h
  · cases h
    exact .inl rfl
  split at h
  · cases h
  split at h
  · cases h
  split at h
  · rename_i hnone
    cases h
    exact .inr ⟨rfl, _, rfl, hnone⟩
  · cases h

theorem kind_of_removeSlot {A : SlotList} {index : Int} {e : Error}
    (h : A.removeSlot index = .error e) : e.kind = .invalidArgument := by
  unfold removeSlot at h
  split at h
  · cases h
    rfl
  split at h
  · cases h
    rfl
  · cases h

theorem kind_of_readSlot {A : SlotList} {index : Int} {e : Error}
    (h : A.readSlot index = .error e) : e.kind = .invalidArgument := by
  unfold readSlot at h
  split at h
  · cases h
    rfl
  split at h
  · cases h
  · cases h

/-- What is refused is refused as a bad argument, but for a cut to a slot whose entry is gone, which
    is loss of data. -/
theorem kind_of_ask {A : SlotList} {r : Request} {e : Error} (h : (A.ask r).1 = .error e) :
    e.kind = .invalidArgument ∨
      e.kind = .dataLoss ∧ ∃ slot, e = .missingSlot slot ∧ A.slot? slot = none := by
  -- Appending and collecting are never refused.
  cases r with
  | append e' => cases h
  | appendBatch entries => cases h
  | removeBefore index => cases h
  | readSlot index =>
    cases hread : A.readSlot index.toInt with
    | ok e? =>
      simp only [ask, hread] at h
      cases h
    | error e' =>
      simp only [ask, hread] at h
      cases h
      exact .inl (kind_of_readSlot hread)
  | truncate index =>
    cases htruncate : A.truncate index.toInt with
    | ok B =>
      simp only [ask, htruncate] at h
      cases h
    | error e' =>
      simp only [ask, htruncate] at h
      cases h
      exact kind_of_truncate htruncate
  | removeSlot index =>
    cases hremove : A.removeSlot index.toInt with
    | ok removed =>
      simp only [ask, hremove] at h
      cases h
    | error e' =>
      simp only [ask, hremove] at h
      cases h
      exact .inl (kind_of_removeSlot hremove)

/-! ## Entries after the operations -/

variable {A : SlotList}

theorem slot?_of_length_le {slot : Nat} (h : A.length ≤ slot) : A.slot? slot = none := by
  rw [slot?, List.getElem?_eq_none h]
  rfl

theorem slot?_append (A : SlotList) (entries : List Entry) (slot : Nat) :
    (A.append entries).slot? slot =
      if slot < A.length then A.slot? slot else entries[slot - A.length]? := by
  unfold append slot?
  by_cases hlt : slot < A.length
  · rw [List.getElem?_append_left hlt, if_pos hlt]
  · rw [List.getElem?_append_right (Nat.not_lt.1 hlt), if_neg hlt, List.getElem?_map]
    cases entries[slot - A.length]? <;> rfl

theorem slot?_take (A : SlotList) (n slot : Nat) :
    SlotList.slot? (A.take n) slot = if slot < n then A.slot? slot else none := by
  unfold slot?
  rw [List.getElem?_take]
  split <;> rfl

theorem slot?_set (A : SlotList) (i slot : Nat) :
    SlotList.slot? (A.set i none) slot = if slot = i then none else A.slot? slot := by
  unfold slot?
  rw [List.getElem?_set]
  by_cases hslot : i = slot
  · rw [if_pos hslot, if_pos hslot.symm]
    split <;> rfl
  · rw [if_neg hslot, if_neg (Ne.symm hslot)]

theorem slot?_replicate_append_drop (A : SlotList) (n slot : Nat) :
    SlotList.slot? (List.replicate n none ++ A.drop n) slot =
      if slot < n then none else A.slot? slot := by
  unfold slot?
  by_cases hlt : slot < n
  · rw [List.getElem?_append_left (by simpa using hlt), if_pos hlt, List.getElem?_replicate,
      if_pos hlt]
    rfl
  · rw [List.getElem?_append_right (by simpa using hlt), if_neg hlt, List.length_replicate,
      List.getElem?_drop]
    congr 2
    omega

/-- The first slots of a list, by their numbers. -/
theorem take_eq_map_range {n : Nat} (h : n ≤ A.length) :
    A.take n = (List.range n).map A.slot? := by
  apply List.ext_getElem?
  intro i
  rw [List.getElem?_take, List.getElem?_map]
  by_cases hi : i < n
  · rw [if_pos hi, List.getElem?_range hi, List.getElem?_eq_getElem (by omega)]
    simp [slot?, List.getElem?_eq_getElem (show i < A.length by omega)]
  · rw [if_neg hi, List.getElem?_eq_none (by simpa using hi)]
    rfl

theorem boundBelow_lt (A : SlotList) (index : Int) (hA : A ≠ []) :
    A.boundBelow index < A.length := by
  have hpos := List.length_pos_iff.2 hA
  unfold boundBelow
  omega

theorem boundBelow_le (A : SlotList) (index : Int) : A.boundBelow index ≤ A.length := by
  unfold boundBelow
  omega

theorem length_removeBefore (A : SlotList) (index : Int) :
    (A.removeBefore index).2.length = A.length := by
  have hle := A.boundBelow_le index
  simp only [removeBefore, List.length_append, List.length_replicate, List.length_drop]
  omega

/-- A cut that succeeds changes nothing, empties the list, or leaves a last slot with its entry. -/
theorem cases_of_truncate {index : Int} {B : SlotList} (h : A.truncate index = .ok B) :
    B = A ∨ B = [] ∨
      ∃ n, 0 < n ∧ n < A.length ∧ A.slot? (n - 1) ≠ none ∧ B = A.take n := by
  unfold truncate at h
  simp only at h
  generalize (max index (-1) + 1).toNat = n at h
  split at h
  · cases h
  split at h
  · cases h
  rename_i hinside
  split at h
  · cases h
    exact .inl rfl
  rename_i hshorter
  split at h
  · cases h
    exact .inr (.inl rfl)
  rename_i hpos
  split at h
  · cases h
  rename_i hentry
  cases h
  exact .inr (.inr ⟨n, by omega, by omega, hentry, rfl⟩)

/-- Every cut keeps the first slots. -/
theorem exists_take_of_truncate {index : Int} {B : SlotList} (h : A.truncate index = .ok B) :
    ∃ n, B = A.take n := by
  obtain rfl | rfl | ⟨n, -, -, -, rfl⟩ := cases_of_truncate h
  · exact ⟨B.length, (List.take_length).symm⟩
  · exact ⟨0, rfl⟩
  · exact ⟨n, rfl⟩

/-- An entry that a list has after a request it had before, or the request has put it there. -/
theorem slot?_of_ask {r : Request} {slot : Nat} {e : Entry} (h : (A.ask r).2.slot? slot = some e) :
    A.slot? slot = some e ∨ A.length ≤ slot ∧ r.entries[slot - A.length]? = some e := by
  have happend : ∀ entries : List Entry, (A.append entries).slot? slot = some e →
      A.slot? slot = some e ∨ A.length ≤ slot ∧ entries[slot - A.length]? = some e := by
    intro entries hentry
    rw [slot?_append] at hentry
    by_cases hlt : slot < A.length
    · rw [if_pos hlt] at hentry
      exact .inl hentry
    · rw [if_neg hlt] at hentry
      exact .inr ⟨Nat.not_lt.1 hlt, hentry⟩
  -- Only appending puts entries anywhere; the other requests take some away, or none.
  cases r with
  | append e' => exact happend [e'] h
  | appendBatch entries => exact happend entries h
  | readSlot index => exact .inl h
  | truncate index =>
    simp only [ask] at h
    cases htruncate : A.truncate index.toInt with
    | error e' =>
      rw [htruncate] at h
      exact .inl h
    | ok B =>
      obtain ⟨n, rfl⟩ := exists_take_of_truncate htruncate
      rw [htruncate] at h
      simp only [slot?_take] at h
      split at h
      · exact .inl h
      · cases h
  | removeSlot index =>
    simp only [ask, removeSlot] at h
    split at h
    · rename_i present B hremove
      split at hremove
      · cases hremove
      · split at hremove
        · cases hremove
        · cases hremove
          simp only [slot?_set] at h
          split at h
          · cases h
          · exact .inl h
    · exact .inl h
  | removeBefore index =>
    simp only [ask, removeBefore, slot?_replicate_append_drop] at h
    split at h
    · cases h
    · exact .inl h

/-! ## The last slot -/

/-- Two lists of one length with the same last entry have the same last term. -/
theorem lastTerm_congr {B : SlotList} (h : B.slot? (B.length - 1) = A.slot? (A.length - 1)) :
    B.lastTerm = A.lastTerm := by
  unfold lastTerm
  rw [h]

theorem lastTerm_of_slot? {e : Entry} (h : A.slot? (A.length - 1) = some e) :
    A.lastTerm = e.term := by
  unfold lastTerm
  rw [h]

theorem last_append {entries : List Entry} {e : Entry} (h : entries.getLast? = some e) :
    (A.append entries).slot? ((A.append entries).length - 1) = some e := by
  have hpos : 0 < entries.length := by
    cases entries with
    | nil => cases h
    | cons e entries => simp
  have hlength : (A.append entries).length = A.length + entries.length := by
    simp [append]
  rw [slot?_append, hlength, if_neg (by omega), ← h, List.getLast?_eq_getElem?]
  congr 1
  omega

/-- Removing a slot leaves the length and the last slot. -/
theorem keeps_removeSlot {index : Int} {found : Bool} {B : SlotList}
    (h : A.removeSlot index = .ok (found, B)) :
    B.length = A.length ∧ B.slot? (B.length - 1) = A.slot? (A.length - 1) := by
  unfold removeSlot at h
  split at h
  · cases h
  · rename_i hnegative
    split at h
    · cases h
    · rename_i hlast
      cases h
      rw [List.length_set, slot?_set]
      refine ⟨rfl, ?_⟩
      -- Of an empty list no slot is the last, and any index is past the end.
      by_cases hA : A.length = 0
      · rw [slot?_of_length_le (by omega), ite_self]
      · rw [if_neg (by omega)]

theorem last_removeBefore (A : SlotList) (index : Int) :
    SlotList.slot? (A.removeBefore index).2 ((A.removeBefore index).2.length - 1) =
      A.slot? (A.length - 1) := by
  rw [length_removeBefore]
  unfold removeBefore
  simp only
  rw [slot?_replicate_append_drop]
  -- The bound stays below the last slot, if there is one.
  by_cases hA : A = []
  · subst hA
    split <;> rfl
  · have hlt := A.boundBelow_lt index hA
    rw [if_neg (by omega)]

end SlotList

end ReplicaStore
