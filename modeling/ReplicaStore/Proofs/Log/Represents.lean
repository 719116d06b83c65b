import ReplicaStore.Proofs.Engine.Range
import ReplicaStore.Proofs.Log.ReadBack
import ReplicaStore.Proofs.Log.SlotList

/-! # What an engine holds of a log

    The contents of an engine represent a list of slots: under the key of each slot is the record
    of its entry, if it has one; under the length's key is the length; and there are no other
    keys. Every operation of the log takes a representation of a list to one of the list after the
    operation, and answers what the list answers.

    * `Represents`: contents represent a list.
    * `Shows`: a log remembers the length and the last term of the list that it represents.
    * `Represents.openOn`: a log that is opened shows the list that the engine represents.
    * `Shows.appendBatch`, `Shows.truncate`, `Shows.removeSlot`, `Shows.removeBefore`: the four
      operations that write. -/

namespace ReplicaStore.OperationLog

open SlotKey

/-! ## Keys -/

/-- Whether a log may use a key. -/
def IsLogKey (k : Bytes) : Prop :=
  k = lengthKey ∨ ∃ slot < slotBound, k = ofSlot slot

theorem lengthKey_ne_ofSlot (slot : Nat) : lengthKey ≠ ofSlot slot :=
  Bytes.ne_of_lt (lengthKey_lt_ofSlot slot)

theorem lt_slotBound_of_le {n : Nat} (h : n ≤ maxLength) : n < slotBound :=
  Nat.lt_of_le_of_lt h (by decide)

/-- Whether a log has used no other keys. -/
def OnlyLogKeys (c : Contents) : Prop :=
  ∀ k v, c.get? k = some v → IsLogKey k

theorem OnlyLogKeys.applyBatch {c : Contents} {batch : Batch} (h : OnlyLogKeys c)
    (hbatch : ∀ w ∈ batch, IsLogKey w.key) : OnlyLogKeys (c.applyBatch batch) := by
  intro k v hv
  -- A key that is there was written by the batch, or was there before it.
  by_cases hnamed : ∃ w ∈ batch, w.key = k
  · obtain ⟨w, hw, rfl⟩ := hnamed
    exact hbatch w hw
  · have hold : (c.applyBatch batch).get? k = c.get? k := by
      apply Contents.get?_applyBatch_of_not_named
      intro w hw hkey
      exact hnamed ⟨w, hw, hkey⟩
    rw [hold] at hv
    exact h k v hv

/-! ## Records -/

variable {c c' : Contents} {slot : Nat}

theorem readRecord_congr (h : c'.get? (ofSlot slot) = c.get? (ofSlot slot)) :
    readRecord .none c' slot = readRecord .none c slot := by
  unfold readRecord
  rw [Fault.get_none, Fault.get_none, h]

theorem readRecord_of_none (h : c.get? (ofSlot slot) = none) :
    readRecord .none c slot = .ok none := by
  unfold readRecord
  rw [Fault.get_none, h]
  rfl

theorem readRecord_of_bytesOf {e : Entry} (he : e.Fits)
    (h : c.get? (ofSlot slot) = some (Record.bytesOf e)) :
    readRecord .none c slot = .ok (some e) := by
  unfold readRecord
  rw [Fault.get_none, h]
  simp only [mapError_ok, ok_bind, Record.decode_bytesOf he]
  rfl

/-- A slot has no entry exactly if nothing is under its key. -/
theorem get?_eq_none_iff {e? : Option Entry} (h : readRecord .none c slot = .ok e?) :
    c.get? (ofSlot slot) = none ↔ e? = none := by
  constructor
  · intro hnone
    rw [readRecord_of_none hnone, Except.ok.injEq] at h
    exact h.symm
  · intro he
    subst he
    cases hget : c.get? (ofSlot slot) with
    | none => rfl
    | some record =>
      unfold readRecord at h
      rw [Fault.get_none, hget] at h
      simp only [mapError_ok, ok_bind] at h
      cases hdecode : Record.decode record with
      | error fault =>
        rw [hdecode] at h
        cases h
      | ok e =>
        rw [hdecode] at h
        cases h

/-- An entry that is read is the one that the record holds. -/
theorem exists_decode_of_readRecord {record : Bytes} {e? : Option Entry}
    (hget : c.get? (ofSlot slot) = some record) (h : readRecord .none c slot = .ok e?) :
    ∃ e, e? = some e ∧ Record.decode record = .ok e := by
  unfold readRecord at h
  rw [Fault.get_none, hget, mapError_ok, ok_bind] at h
  obtain ⟨e, hdecode, he⟩ := exists_of_bind_eq_ok h
  cases he
  exact ⟨e, rfl, eq_ok_of_mapError hdecode⟩

/-! ## Representation -/

/-- Whether contents represent a list of slots. -/
structure Represents (c : Contents) (A : SlotList) : Prop where
  /-- The record of each slot is there. -/
  slot : ∀ slot < slotBound, readRecord .none c slot = .ok (A.slot? slot)
  /-- The length record is there; an empty log may do without. -/
  length : c.get? lengthKey = some (ofSlot A.length) ∨ A = [] ∧ c.get? lengthKey = none
  /-- There are no other keys. -/
  keys : OnlyLogKeys c
  /-- The length fits its record. -/
  bounded : A.length ≤ maxLength
  /-- The last slot has its entry. -/
  ends : A.EndsInEntry

/-- Whether a log shows a list of slots. -/
structure Shows (log : OperationLog) (A : SlotList) : Prop where
  represents : Represents log.contents A
  length : log.length = A.length
  term : log.lastTerm = A.lastTerm

theorem represents_empty : Represents Contents.empty [] where
  slot _ _ := readRecord_of_none rfl
  length := .inr ⟨rfl, rfl⟩
  keys k v hv := by
    rw [Contents.get?_empty] at hv
    cases hv
  bounded := Nat.zero_le _
  ends hne := absurd rfl hne

variable {A B : SlotList} {log : OperationLog}

theorem Represents.get?_isSome (h : Represents c A) (hslot : slot < slotBound) :
    (c.get? (ofSlot slot)).isSome = (A.slot? slot).isSome := by
  have hiff := get?_eq_none_iff (h.slot slot hslot)
  rw [Bool.eq_iff_iff, Option.isSome_iff_ne_none, Option.isSome_iff_ne_none]
  exact not_congr hiff

theorem Represents.last (h : Represents c A) (hne : A ≠ []) :
    ∃ e, A.slot? (A.length - 1) = some e ∧ A.lastTerm = e.term ∧
      readRecord .none c (A.length - 1) = .ok (some e) := by
  obtain ⟨e, he⟩ := h.ends hne
  refine ⟨e, he, SlotList.lastTerm_of_slot? he, ?_⟩
  rw [← he]
  apply h.slot
  have hbound := lt_slotBound_of_le h.bounded
  omega

/-! ## Opening -/

/-- A log of a known length is opened with the term of its last slot. -/
theorem openOn_of_length {n : Nat} {term : Int64} (h : c.get? lengthKey = some (ofSlot n))
    (hn : n ≤ maxLength)
    (hlast : n = 0 ∧ term = noTerm ∨
      n ≠ 0 ∧ ∃ e, readRecord .none c (n - 1) = .ok (some e) ∧ term = e.term) :
    openOn .none c = .ok ⟨c, n, term⟩ := by
  have hne : ofSlot n ≠ [] := by
    intro hnil
    have hwidth := length_ofSlot n
    rw [hnil] at hwidth
    cases hwidth
  -- An empty record would be taken for a missing one, so it has to be told apart first.
  obtain ⟨b, bs, hcons⟩ := List.exists_cons_of_ne_nil hne
  unfold OperationLog.openOn
  rw [Fault.get_none, h, hcons]
  simp only [mapError_ok, ok_bind]
  rw [← hcons, readLength_ofSlot hn, ok_bind]
  rcases hlast with ⟨rfl, rfl⟩ | ⟨hpos, e, hrecord, rfl⟩
  · rfl
  · rw [if_neg hpos, hrecord]
    rfl

theorem openOn_of_none (h : c.get? lengthKey = none) : openOn .none c = .ok ⟨c, 0, noTerm⟩ := by
  unfold OperationLog.openOn
  rw [Fault.get_none, h]
  rfl

/-- A log that is opened shows what the engine represents. -/
theorem Represents.openOn (h : Represents c A) :
    ∃ log, openOn .none c = .ok log ∧ log.contents = c ∧ log.Shows A := by
  -- An empty log has no last term to read, and may have no length record.
  by_cases hA : A = []
  · have hopen : OperationLog.openOn .none c = .ok ⟨c, 0, noTerm⟩ := by
      rcases h.length with hlength | ⟨-, hlength⟩
      · rw [hA] at hlength
        exact openOn_of_length hlength (Nat.zero_le _) (.inl ⟨rfl, rfl⟩)
      · exact openOn_of_none hlength
    refine ⟨_, hopen, rfl, h, ?_, ?_⟩
    · rw [hA]
      rfl
    · rw [hA]
      rfl
  · obtain ⟨e, -, hterm, hrecord⟩ := h.last hA
    have hlength : c.get? lengthKey = some (ofSlot A.length) := by
      rcases h.length with hlength | ⟨hnil, -⟩
      · exact hlength
      · exact absurd hnil hA
    have hpos : A.length ≠ 0 := by
      intro hzero
      exact hA (List.length_eq_zero_iff.1 hzero)
    have hopen : OperationLog.openOn .none c = .ok ⟨c, A.length, e.term⟩ :=
      openOn_of_length hlength h.bounded (.inr ⟨hpos, e, hrecord, rfl⟩)
    exact ⟨_, hopen, rfl, h, rfl, hterm.symm⟩

/-! ## Reading -/

theorem Shows.readSlot (h : log.Shows A) {index : Int} (hindex : index < slotBound) :
    log.readSlot .none index = A.readSlot index := by
  unfold OperationLog.readSlot SlotList.readSlot
  rw [h.length]
  split
  · rfl
  · split
    · rfl
    · exact h.represents.slot _ (by omega)

/-! ## Writing -/

/-- Whether a batch names keys of slots only. -/
def NamesSlots (batch : Batch) : Prop :=
  ∀ w ∈ batch, ∃ slot < slotBound, w.key = ofSlot slot

theorem NamesSlots.get?_lengthKey {batch : Batch} (h : NamesSlots batch) (c : Contents) :
    (c.applyBatch batch).get? lengthKey = c.get? lengthKey := by
  apply Contents.get?_applyBatch_of_not_named
  intro w hw hkey
  obtain ⟨slot, -, hslot⟩ := h w hw
  exact lengthKey_ne_ofSlot slot (hkey.symm.trans hslot)

theorem NamesSlots.onlyLogKeys {batch : Batch} (h : NamesSlots batch) (hc : OnlyLogKeys c) :
    OnlyLogKeys (c.applyBatch batch) :=
  hc.applyBatch fun w hw => .inr (h w hw)

theorem get?_lengthWrite (c : Contents) (n : Nat) (k : Bytes) :
    (c.applyBatch [lengthWrite n]).get? k =
      if k = lengthKey then some (ofSlot n) else c.get? k := by
  rw [Contents.applyBatch_cons, Contents.applyBatch_nil, Contents.get?_apply]
  rfl

/-- A batch that changes slots, and the length that goes with them. -/
theorem Represents.resize {batch : Batch} (h : Represents c A) (hnames : NamesSlots batch)
    (hslot : ∀ slot < slotBound, readRecord .none (c.applyBatch batch) slot = .ok (B.slot? slot))
    (hbounded : B.length ≤ maxLength) (hends : B.EndsInEntry) :
    Represents (c.applyBatch (batch ++ [lengthWrite B.length])) B := by
  rw [Contents.applyBatch_append]
  -- The length is written last, and under a key of its own, so the slots are not in its way.
  refine ⟨?_, .inl ?_, ?_, hbounded, hends⟩
  · intro slot hlt
    rw [← hslot slot hlt]
    apply readRecord_congr
    rw [get?_lengthWrite, if_neg (lengthKey_ne_ofSlot slot).symm]
  · rw [get?_lengthWrite, if_pos rfl]
  · apply (hnames.onlyLogKeys h.keys).applyBatch
    intro w hw
    rw [List.mem_singleton.1 hw]
    exact .inl rfl

/-- A batch that changes slots and leaves the length. -/
theorem Represents.rewrite {batch : Batch} (h : Represents c A) (hnames : NamesSlots batch)
    (hslot : ∀ slot < slotBound, readRecord .none (c.applyBatch batch) slot = .ok (B.slot? slot))
    (hlength : B.length = A.length) (hends : B.EndsInEntry) :
    Represents (c.applyBatch batch) B := by
  refine ⟨hslot, ?_, hnames.onlyLogKeys h.keys, ?_, hends⟩
  · rw [hnames.get?_lengthKey c, hlength]
    rcases h.length with hrecord | ⟨hA, hrecord⟩
    · exact .inl hrecord
    · rw [hA] at hlength
      exact .inr ⟨List.length_eq_zero_iff.1 hlength, hrecord⟩
  · rw [hlength]
    exact h.bounded

/-! ## Appending -/

theorem ofSlot_eq_iff {s : Nat} (hs : s < slotBound) (hslot : slot < slotBound) :
    ofSlot s = ofSlot slot ↔ s = slot :=
  ⟨ofSlot_inj hs hslot, fun h => by rw [h]⟩

theorem namesSlots_slotWrites {records : List Bytes} (hbound : slot + records.length ≤ slotBound) :
    NamesSlots (slotWrites slot records) := by
  induction records generalizing slot with
  | nil =>
    intro w hw
    cases hw
  | cons record records ih =>
    rw [List.length_cons] at hbound
    intro w hw
    rcases List.mem_cons.1 hw with rfl | htail
    · exact ⟨slot, by omega, rfl⟩
    · exact ih (by omega) w htail

/-- What the writes of records leave under a slot's key. -/
theorem get?_slotWrites {records : List Bytes} (hbound : slot + records.length ≤ slotBound)
    (c : Contents) {s : Nat} (hs : s < slotBound) :
    (c.applyBatch (slotWrites slot records)).get? (ofSlot s) =
      if s < slot then c.get? (ofSlot s)
      else (records[s - slot]?).or (c.get? (ofSlot s)) := by
  -- Every record moves the slot on by one, so the slot has to be general; and the contents, as the
  -- first write has changed them when the others are made.
  induction records generalizing c slot with
  | nil => simp [slotWrites]
  | cons record records ih =>
    rw [List.length_cons] at hbound
    rw [slotWrites, Contents.applyBatch_cons, ih (by omega), Contents.get?_apply]
    have hkey := ofSlot_eq_iff hs (show slot < slotBound by omega)
    simp only [Write.key, Write.value?, hkey]
    by_cases hlt : s < slot
    · rw [if_pos hlt, if_pos (by omega), if_neg (by omega)]
    · by_cases heq : s = slot
      · subst heq
        simp
      · have hsub : s - slot = (s - (slot + 1)) + 1 := by omega
        rw [if_neg (by omega), if_neg heq, if_neg hlt, hsub, List.getElem?_cons_succ]

/-- The records written behind the last slot are those of the entries put at the end. -/
theorem Represents.readRecord_slotWrites {entries : List Entry} (h : Represents c A)
    (hfits : ∀ e ∈ entries, e.Fits) (hbound : A.length + entries.length ≤ slotBound)
    (hslot : slot < slotBound) :
    readRecord .none (c.applyBatch (slotWrites A.length (entries.map Record.bytesOf))) slot =
      .ok ((A.append entries).slot? slot) := by
  have hroom : A.length + (entries.map Record.bytesOf).length ≤ slotBound := by
    rw [List.length_map]
    exact hbound
  have hget := get?_slotWrites hroom c hslot
  rw [SlotList.slot?_append]
  by_cases hold : slot < A.length
  · rw [if_pos hold] at hget ⊢
    rw [readRecord_congr hget]
    exact h.slot slot hslot
  · rw [if_neg hold] at hget ⊢
    rw [List.getElem?_map] at hget
    cases hentry : entries[slot - A.length]? with
    | none =>
      -- Past the new end nothing was written, and nothing was there.
      rw [hentry] at hget
      rw [readRecord_congr hget, h.slot slot hslot,
        SlotList.slot?_of_length_le (Nat.not_lt.1 hold)]
    | some e =>
      rw [hentry] at hget
      exact readRecord_of_bytesOf (hfits e (List.mem_of_getElem? hentry)) hget

/-- Appending entries that records can hold, as many as the length allows, puts them at the end of
    the list. -/
theorem Shows.appendBatch {entries : List Entry} (h : log.Shows A) (hfits : ∀ e ∈ entries, e.Fits)
    (hbounded : A.length + entries.length ≤ maxLength) :
    ∃ log', log.appendBatch .none entries = .ok log' ∧ log'.Shows (A.append entries) := by
  -- Without a last entry there are no entries at all, and nothing is written.
  cases hlast : entries.getLast? with
  | none =>
    have hnil : entries = [] := List.getLast?_eq_none_iff.1 hlast
    subst hnil
    refine ⟨log, rfl, ?_⟩
    have hsame : A.append [] = A := List.append_nil A
    rw [hsame]
    exact h
  | some last =>
    have hlength : (A.append entries).length = A.length + entries.length := by
      simp [SlotList.append]
    have hend := SlotList.last_append (A := A) hlast
    have hslotBound := lt_slotBound_of_le hbounded
    have hnames : NamesSlots (slotWrites A.length (entries.map Record.bytesOf)) := by
      apply namesSlots_slotWrites
      rw [List.length_map]
      omega
    -- The list ends in an entry after this, whatever was collected before: the last one appended.
    have hrepresents := h.represents.resize hnames
      (fun slot hslot => h.represents.readRecord_slotWrites hfits (by omega) hslot)
      (by omega) (fun _ => ⟨last, hend⟩)
    rw [hlength] at hrepresents
    refine ⟨⟨_, A.length + entries.length, last.term⟩, ?_, hrepresents, hlength.symm,
      (SlotList.lastTerm_of_slot? hend).symm⟩
    unfold OperationLog.appendBatch
    rw [hlast, h.length]
    simp only [Record.mapM_encode_eq_ok hfits, mapError_ok, ok_bind, Fault.write_none,
      if_neg (Nat.not_lt.2 hbounded)]
    rfl

/-! ## Removing -/

/-- The writes that remove the records of slots. -/
def slotsDeleted (slots : List Nat) : Batch :=
  (slots.map ofSlot).map .delete

theorem namesSlots_slotsDeleted {slots : List Nat} (hslots : ∀ s ∈ slots, s < slotBound) :
    NamesSlots (slotsDeleted slots) := by
  intro w hw
  obtain ⟨k, hk, rfl⟩ := List.mem_map.1 hw
  obtain ⟨s, hs, rfl⟩ := List.mem_map.1 hk
  exact ⟨s, hslots s hs, rfl⟩

/-- Slots whose records are removed have no entry, and all others have theirs. -/
theorem Represents.readRecord_slotsDeleted {slots : List Nat} (h : Represents c A)
    (hslots : ∀ s ∈ slots, s < slotBound) (hslot : slot < slotBound) :
    readRecord .none (c.applyBatch (slotsDeleted slots)) slot =
      .ok (if slot ∈ slots then none else A.slot? slot) := by
  have hget := Contents.get?_applyBatch_delete c (slots.map ofSlot) (ofSlot slot)
  by_cases hmem : slot ∈ slots
  · rw [if_pos (List.mem_map_of_mem hmem)] at hget
    rw [if_pos hmem]
    exact readRecord_of_none hget
  · -- Slot keys tell slots apart, so no other slot's record is removed with it.
    have hkey : ofSlot slot ∉ slots.map ofSlot := by
      intro hkey
      obtain ⟨s, hs, heq⟩ := List.mem_map.1 hkey
      rw [ofSlot_inj (hslots s hs) hslot heq] at hs
      exact hmem hs
    rw [if_neg hkey] at hget
    rw [if_neg hmem, ← h.slot slot hslot]
    exact readRecord_congr hget

/-! ## Cutting -/

theorem slotDeletes_eq (slot count : Nat) :
    slotDeletes slot count = slotsDeleted (List.range' slot count) := by
  induction count generalizing slot with
  | zero => rfl
  | succ count ih =>
    rw [slotDeletes, ih]
    rfl

/-- Cutting the log to a length that it has passed, once the term there is known. -/
theorem Shows.cut {n : Nat} {term : Int64} (h : log.Shows A) (hn : n < A.length)
    (hends : SlotList.EndsInEntry (A.take n)) (hterm : SlotList.lastTerm (A.take n) = term) :
    Shows ⟨log.contents.applyBatch (slotDeletes n (log.length - n) ++ [lengthWrite n]), n, term⟩
      (A.take n) := by
  have hbound := lt_slotBound_of_le h.represents.bounded
  have hlength : (A.take n).length = n := by
    rw [List.length_take]
    omega
  have hslots : ∀ s ∈ List.range' n (A.length - n), s < slotBound := by
    intro s hs
    have hrange := List.mem_range'_1.1 hs
    omega
  -- The slots from `n` on lose their records, up to the length; past the length there are none.
  have hslot : ∀ slot < slotBound,
      readRecord .none
          (log.contents.applyBatch (slotsDeleted (List.range' n (A.length - n)))) slot =
        .ok (SlotList.slot? (A.take n) slot) := by
    intro slot hlt
    rw [h.represents.readRecord_slotsDeleted hslots hlt, SlotList.slot?_take]
    simp only [List.mem_range'_1]
    by_cases hkept : slot < n
    · rw [if_neg (by omega), if_pos hkept]
    · rw [if_neg hkept]
      by_cases hcut : slot < A.length
      · rw [if_pos (by omega)]
      · rw [SlotList.slot?_of_length_le (Nat.not_lt.1 hcut), ite_self]
  have hbounded : (A.take n).length ≤ maxLength := by
    rw [hlength]
    exact Nat.le_trans (Nat.le_of_lt hn) h.represents.bounded
  have hrepresents := h.represents.resize (namesSlots_slotsDeleted hslots) hslot hbounded hends
  rw [hlength] at hrepresents
  rw [h.length, slotDeletes_eq]
  exact ⟨hrepresents, hlength.symm, hterm.symm⟩

/-- Cutting the log cuts the list, or is refused for the same reason. -/
theorem Shows.truncate (h : log.Shows A) (index : Int) :
    match A.truncate index with
    | .error e => log.truncate .none index = .error e
    | .ok B => ∃ log', log.truncate .none index = .ok log' ∧ log'.Shows B := by
  unfold SlotList.truncate OperationLog.truncate
  rw [h.length]
  generalize (max index (-1) + 1).toNat = n
  simp only
  -- From here on the two definitions branch on the same conditions, in the same order.
  by_cases hwrapped : maxLength < n
  · rw [if_pos hwrapped, if_pos hwrapped]
  rw [if_neg hwrapped, if_neg hwrapped]
  by_cases hbeyond : A.length < n
  · rw [if_pos hbeyond, if_pos hbeyond]
  rw [if_neg hbeyond, if_neg hbeyond]
  by_cases hsame : n = A.length
  · rw [if_pos hsame, if_pos hsame]
    exact ⟨log, rfl, h⟩
  rw [if_neg hsame, if_neg hsame]
  have hlt : n < A.length := by omega
  unfold termAt
  by_cases hzero : n = 0
  · subst hzero
    rw [if_pos rfl, if_pos rfl]
    have hterm : SlotList.lastTerm (A.take 0) = noTerm := rfl
    have hcut := h.cut hlt (fun hne => absurd rfl hne) hterm
    rw [h.length] at hcut
    exact ⟨_, rfl, hcut⟩
  rw [if_neg hzero, if_neg hzero,
    h.represents.slot (n - 1) (by have := lt_slotBound_of_le h.represents.bounded; omega)]
  have hlength : (A.take n).length = n := by
    rw [List.length_take]
    omega
  -- The slot whose term is looked up is the last one that stays, so its entry decides both whether
  -- the cut is refused and what the last term is afterwards.
  have hlast : SlotList.slot? (A.take n) ((A.take n).length - 1) = A.slot? (n - 1) := by
    rw [SlotList.slot?_take, hlength, if_pos (by omega)]
  cases hentry : A.slot? (n - 1) with
  | none =>
    rw [if_pos rfl]
    rfl
  | some e =>
    rw [hentry] at hlast
    rw [if_neg (by simp)]
    have hcut := h.cut hlt (fun _ => ⟨e, hlast⟩) (SlotList.lastTerm_of_slot? hlast)
    rw [h.length] at hcut
    exact ⟨_, rfl, hcut⟩

/-! ## Collecting -/

/-- The last slot's entry is what decides whether a list ends in an entry. -/
theorem Represents.ends_of_last (h : Represents c A) (hlength : B.length = A.length)
    (hlast : B.slot? (B.length - 1) = A.slot? (A.length - 1)) : B.EndsInEntry := by
  intro hne
  rw [hlast]
  apply h.ends
  intro hA
  apply hne
  apply List.length_eq_zero_iff.1
  rw [hlength, hA]
  rfl

/-- Removing the record of a slot, but not of the last one, empties the slot. -/
theorem Represents.erase (h : Represents c A) (hslot : slot < slotBound)
    (hends : SlotList.EndsInEntry (A.set slot none)) :
    Represents (c.applyBatch [.delete (ofSlot slot)]) (A.set slot none) := by
  have hslots : ∀ s ∈ [slot], s < slotBound := by
    intro s hs
    rw [List.mem_singleton.1 hs]
    exact hslot
  apply h.rewrite (namesSlots_slotsDeleted hslots) _ List.length_set hends
  intro s hs
  rw [h.readRecord_slotsDeleted hslots hs, SlotList.slot?_set]
  simp only [List.mem_singleton]

/-- A slot without an entry is empty already. -/
theorem Represents.set_of_none (h : Represents c A) (hnone : A.slot? slot = none)
    (hends : SlotList.EndsInEntry (A.set slot none)) : Represents c (A.set slot none) := by
  have hnames : NamesSlots [] := by
    intro w hw
    cases hw
  apply h.rewrite hnames _ List.length_set hends
  intro s hs
  show readRecord .none c s = _
  rw [h.slot s hs, SlotList.slot?_set]
  by_cases hsame : s = slot
  · rw [if_pos hsame, hsame, hnone]
  · rw [if_neg hsame]

/-- Emptying a slot that is not the last one empties it in the list, and tells whether an entry
    was there. -/
theorem Shows.removeSlot (h : log.Shows A) {index : Int} (hindex : index < slotBound) :
    match A.removeSlot index with
    | .error e => log.removeSlot .none index = .error e
    | .ok (found, B) => ∃ log', log.removeSlot .none index = .ok (found, log') ∧ log'.Shows B := by
  have hkeeps : ∀ found B, A.removeSlot index = .ok (found, B) →
      B.length = A.length ∧ B.slot? (B.length - 1) = A.slot? (A.length - 1) :=
    fun _ _ => SlotList.keeps_removeSlot
  unfold SlotList.removeSlot at hkeeps ⊢
  unfold OperationLog.removeSlot lastIndex
  rw [h.length]
  by_cases hnegative : index < 0
  · rw [if_pos hnegative, if_pos hnegative]
    rfl
  rw [if_neg hnegative] at hkeeps ⊢
  by_cases hlastSlot : index = (A.length : Int) - 1
  · rw [if_pos hlastSlot, if_neg hnegative, if_pos hlastSlot]
    rfl
  rw [if_neg hlastSlot] at hkeeps ⊢
  rw [if_neg hnegative, if_neg hlastSlot]
  -- The slot is not the last one, so the length and the last term may stay as they are.
  obtain ⟨hlength, hlast⟩ := hkeeps _ _ rfl
  have hends := h.represents.ends_of_last hlength hlast
  have hterm := SlotList.lastTerm_congr hlast
  have hslot : index.toNat < slotBound := by omega
  have hsome := h.represents.get?_isSome hslot
  simp only [Fault.get_none, mapError_ok, ok_bind]
  cases hget : log.contents.get? (ofSlot index.toNat) with
  | none =>
    -- Nothing is written for an empty slot, and the list does not change either.
    have hnone : A.slot? index.toNat = none :=
      (get?_eq_none_iff (h.represents.slot _ hslot)).1 hget
    rw [hnone]
    exact ⟨log, rfl, h.represents.set_of_none hnone hends, h.length.trans hlength.symm,
      h.term.trans hterm.symm⟩
  | some record =>
    rw [hget] at hsome
    rw [← hsome]
    exact ⟨⟨log.contents.applyBatch [.delete (ofSlot index.toNat)], A.length, log.lastTerm⟩, rfl,
      h.represents.erase hslot hends, hlength.symm, h.term.trans hterm.symm⟩

/-- The slots below a bound that have an entry. -/
def presentBelow (A : SlotList) (n : Nat) : List Nat :=
  (List.range n).filter fun slot => (A.slot? slot).isSome

theorem mem_presentBelow_iff {n : Nat} :
    slot ∈ presentBelow A n ↔ slot < n ∧ (A.slot? slot).isSome := by
  simp only [presentBelow, List.mem_filter, List.mem_range]

theorem length_presentBelow {n : Nat} (hn : n ≤ A.length) :
    (presentBelow A n).length = (A.take n).countP Option.isSome := by
  rw [SlotList.take_eq_map_range hn, List.countP_map, List.countP_eq_length_filter]
  rfl

/-- A key lies below a slot exactly if it is that of a slot below it that has an entry. -/
theorem Represents.mem_keysBelow_iff (h : Represents c A) {n : Nat} (hn : n < slotBound)
    {k : Bytes} : k ∈ keysBelow c n ↔ k ∈ (presentBelow A n).map ofSlot := by
  have hmem : k ∈ keysBelow c n ↔ ∃ v, c.get? k = some v ∧ ¬ k < ofSlot 0 ∧ k < ofSlot n := by
    unfold keysBelow
    rw [List.mem_map]
    constructor
    · rintro ⟨⟨key, v⟩, hpair, rfl⟩
      exact ⟨v, Cursor.mem_takeWhile_seek_iff.1 hpair⟩
    · rintro ⟨v, hv⟩
      exact ⟨(k, v), Cursor.mem_takeWhile_seek_iff.2 hv, rfl⟩
  rw [hmem, List.mem_map]
  constructor
  · -- The length's key sorts before every slot key, so what is found from slot 0 on is a slot's.
    rintro ⟨v, hget, hlow, hhigh⟩
    rcases h.keys k v hget with rfl | ⟨slot, hlt, rfl⟩
    · exact absurd (lengthKey_lt_ofSlot 0) hlow
    · have hsome := h.get?_isSome hlt
      rw [hget] at hsome
      exact ⟨slot, mem_presentBelow_iff.2 ⟨(ofSlot_lt_ofSlot_iff hlt hn).1 hhigh, hsome.symm⟩, rfl⟩
  · rintro ⟨slot, hpresent, rfl⟩
    obtain ⟨hlt, hsome⟩ := mem_presentBelow_iff.1 hpresent
    have hslot : slot < slotBound := by omega
    rw [← h.get?_isSome hslot] at hsome
    obtain ⟨v, hv⟩ := Option.isSome_iff_exists.1 hsome
    refine ⟨v, hv, ?_, (ofSlot_lt_ofSlot_iff hslot hn).2 hlt⟩
    intro hlow
    exact absurd ((ofSlot_lt_ofSlot_iff hslot (by omega)).1 hlow) (Nat.not_lt_zero slot)

/-- The keys that a cursor finds below a slot are those of the slots that have an entry, in
    order. -/
theorem Represents.keysBelow_eq (h : Represents c A) {n : Nat} (hn : n < slotBound) :
    keysBelow c n = (presentBelow A n).map ofSlot := by
  have hfound : (keysBelow c n).Pairwise (· < ·) := by
    unfold keysBelow
    rw [List.pairwise_map]
    exact Cursor.ascending_takeWhile_seek c _ _
  have hkeys : ((presentBelow A n).map ofSlot).Pairwise (· < ·) := by
    rw [List.pairwise_map]
    apply List.Pairwise.imp_of_mem _ (List.pairwise_lt_range.filter _)
    intro a b ha hb hlt
    have ha' := (mem_presentBelow_iff.1 ha).1
    have hb' := (mem_presentBelow_iff.1 hb).1
    exact (ofSlot_lt_ofSlot_iff (by omega) (by omega)).2 hlt
  -- Both lists are sorted and have the same members.
  apply List.Perm.eq_of_pairwise _ hfound hkeys
  · apply (List.perm_ext_iff_of_nodup (hfound.imp Bytes.ne_of_lt) (hkeys.imp Bytes.ne_of_lt)).2
    intro k
    exact h.mem_keysBelow_iff hn
  · intro a b _ _ hab hba
    exact absurd hba (Bytes.lt_asymm hab)

/-- Collecting below an index empties the slots below it in the list, and tells how many entries
    were there. -/
theorem Shows.removeBefore (h : log.Shows A) (index : Int) :
    (log.removeBefore .none index).1 = .ok (A.removeBefore index).1 ∧
      (log.removeBefore .none index).2.Shows (A.removeBefore index).2 := by
  have hrep := h.represents
  have hbound := lt_slotBound_of_le hrep.bounded
  have hle := A.boundBelow_le index
  have hcollect : log.collectBound index = min index ((A.length : Int) - 1) := by
    rw [collectBound, lastIndex, h.length]
  unfold OperationLog.removeBefore
  rw [hcollect]
  -- At or below slot 0 there is nothing to collect; past that the bound is a natural number.
  by_cases hnone : min index ((A.length : Int) - 1) ≤ 0
  · have hzero : A.boundBelow index = 0 := by
      unfold SlotList.boundBelow
      omega
    have hsame : A.removeBefore index = (0, A) := by
      simp [SlotList.removeBefore, hzero]
    rw [if_pos hnone, hsame]
    exact ⟨rfl, h⟩
  rw [if_neg hnone]
  show (Except.ok (keysBelow log.contents (A.boundBelow index)).length : Except Error Nat) = _ ∧
    Shows ⟨log.contents.applyBatch ((keysBelow log.contents (A.boundBelow index)).map .delete),
      log.length, log.lastTerm⟩ _
  rw [hrep.keysBelow_eq (by omega)]
  have hslots : ∀ s ∈ presentBelow A (A.boundBelow index), s < slotBound := by
    intro s hs
    have hlt := (mem_presentBelow_iff.1 hs).1
    omega
  have hlast := A.last_removeBefore index
  have hlength := A.length_removeBefore index
  refine ⟨?_, ?_, h.length.trans hlength.symm,
    h.term.trans (SlotList.lastTerm_congr hlast).symm⟩
  · rw [List.length_map, length_presentBelow hle]
    rfl
  apply hrep.rewrite (namesSlots_slotsDeleted hslots) _ hlength (hrep.ends_of_last hlength hlast)
  intro slot hslot
  rw [hrep.readRecord_slotsDeleted hslots hslot]
  simp only [SlotList.removeBefore, SlotList.slot?_replicate_append_drop, mem_presentBelow_iff]
  by_cases hlt : slot < A.boundBelow index
  · -- A slot below the bound that has no entry is left alone, and has none afterwards.
    rw [if_pos hlt]
    cases hslot? : A.slot? slot with
    | none => rw [ite_self]
    | some e => rw [if_pos ⟨hlt, rfl⟩]
  · rw [if_neg hlt, if_neg (fun hpresent => hlt hpresent.1)]

end ReplicaStore.OperationLog
