import ReplicaStore.Proofs.Log.FaultySession

/-! # Collecting by scan and slot by slot

    A log collects garbage in two ways: it removes the record of one slot, which it looks up by the
    slot's number, or it walks a cursor over the keys below a bound and removes what it finds. On a
    log that was empty at first the two agree, whatever was done to it before: the keys that the
    cursor finds are those of the slots that have a record.

    * `removeSlot_eq`, `Shows.removeBefore_eq`: both ways leave the contents without some slots,
      and count the records that were there.
    * `countRecords_range_without`: what is counted by one collection after another adds up.
    * `scan_agrees_with_sweep`: on a log in any session, one collection by scan is one sweep over
      the slots below its bound, and two collections are one. -/

namespace ReplicaStore

namespace OperationLog

open SlotKey

variable {c : Contents} {log : OperationLog} {A : SlotList}

/-! ## Contents without some slots -/

/-- Contents from which the records of some slots are removed. -/
def without (c : Contents) (slots : List Nat) : Contents :=
  c.applyBatch (slotsDeleted slots)

/-- The number of records that contents hold for some slots. -/
def countRecords (c : Contents) (slots : List Nat) : Nat :=
  slots.countP fun slot => (c.get? (ofSlot slot)).isSome

theorem get?_without (c : Contents) (slots : List Nat) (k : Bytes) :
    (without c slots).get? k = if k ∈ slots.map ofSlot then none else c.get? k :=
  Contents.get?_applyBatch_delete c (slots.map ofSlot) k

theorem without_append (c : Contents) (slots slots' : List Nat) :
    without c (slots ++ slots') = without (without c slots) slots' := by
  unfold without slotsDeleted
  rw [List.map_append, List.map_append, Contents.applyBatch_append]

/-- Slots without a record need not be removed. -/
theorem without_filter (c : Contents) (slots : List Nat) :
    without c (slots.filter fun slot => (c.get? (ofSlot slot)).isSome) = without c slots := by
  apply Contents.ext_get?
  intro k
  rw [get?_without, get?_without]
  by_cases hkept : k ∈ (slots.filter fun slot => (c.get? (ofSlot slot)).isSome).map ofSlot
  · obtain ⟨slot, hslot, hkey⟩ := List.mem_map.1 hkept
    rw [if_pos hkept, if_pos (List.mem_map.2 ⟨slot, (List.mem_filter.1 hslot).1, hkey⟩)]
  · rw [if_neg hkept]
    by_cases hmem : k ∈ slots.map ofSlot
    · -- The slot is one that was left out, so there is nothing under its key.
      obtain ⟨slot, hslot, rfl⟩ := List.mem_map.1 hmem
      rw [if_pos hmem]
      by_contra hsome
      apply hkept
      exact List.mem_map_of_mem (List.mem_filter.2 ⟨hslot, Option.isSome_iff_ne_none.2 hsome⟩)
    · rw [if_neg hmem]

theorem get?_lengthKey_without (c : Contents) (slots : List Nat) :
    (without c slots).get? lengthKey = c.get? lengthKey := by
  rw [get?_without, if_neg]
  intro hmem
  obtain ⟨slot, -, hkey⟩ := List.mem_map.1 hmem
  exact lengthKey_ne_ofSlot slot hkey.symm

theorem ofSlot_mem_map_iff {slots : List Nat} (hslots : ∀ s ∈ slots, s < slotBound) {slot : Nat}
    (hslot : slot < slotBound) : ofSlot slot ∈ slots.map ofSlot ↔ slot ∈ slots := by
  constructor
  · intro hmem
    obtain ⟨s, hs, hkey⟩ := List.mem_map.1 hmem
    rw [← ofSlot_inj (hslots s hs) hslot hkey]
    exact hs
  · exact List.mem_map_of_mem

theorem get?_ofSlot_without {slots : List Nat} (hslots : ∀ s ∈ slots, s < slotBound) {slot : Nat}
    (hslot : slot < slotBound) :
    (without c slots).get? (ofSlot slot) = if slot ∈ slots then none else c.get? (ofSlot slot) := by
  rw [get?_without]
  by_cases hmem : slot ∈ slots
  · rw [if_pos hmem, if_pos (List.mem_map_of_mem hmem)]
  · rw [if_neg hmem, if_neg (mt (ofSlot_mem_map_iff hslots hslot).1 hmem)]

/-! ## Counting -/

theorem countRecords_append (c : Contents) (slots slots' : List Nat) :
    countRecords c (slots ++ slots') = countRecords c slots + countRecords c slots' :=
  List.countP_append

/-- Of slots that were removed there are no records. -/
theorem countRecords_without_of_subset {slots slots' : List Nat} (h : slots' ⊆ slots) :
    countRecords (without c slots) slots' = 0 := by
  refine List.countP_eq_zero.2 ?_
  intro slot hslot
  rw [get?_without, if_pos (List.mem_map_of_mem (h hslot))]
  decide

/-- Removing slots leaves the number of records for the others. -/
theorem countRecords_without_of_disjoint {slots slots' : List Nat}
    (hslots : ∀ s ∈ slots, s < slotBound) (hslots' : ∀ s ∈ slots', s < slotBound)
    (h : ∀ s ∈ slots', s ∉ slots) :
    countRecords (without c slots) slots' = countRecords c slots' := by
  refine List.countP_congr ?_
  intro slot hslot
  rw [get?_ofSlot_without hslots (hslots' slot hslot), if_neg (h slot hslot)]

/-- Removing the slots below one bound and then those below another one removes those below the
    greater one. -/
theorem without_range_range (c : Contents) (m n : Nat) :
    without (without c (List.range m)) (List.range n) = without c (List.range (max m n)) := by
  -- Which keys are gone depends on the slots as a set only.
  rw [← without_append]
  apply Contents.ext_get?
  intro k
  rw [get?_without, get?_without]
  have hrange : ∀ slot, slot ∈ List.range m ++ List.range n ↔ slot ∈ List.range (max m n) := by
    intro slot
    simp only [List.mem_append, List.mem_range]
    omega
  have hmem : k ∈ (List.range m ++ List.range n).map ofSlot ↔
      k ∈ (List.range (max m n)).map ofSlot := by
    simp only [List.mem_map, hrange]
  by_cases hk : k ∈ (List.range (max m n)).map ofSlot
  · rw [if_pos hk, if_pos (hmem.2 hk)]
  · rw [if_neg hk, if_neg (mt hmem.1 hk)]

/-- What is counted below one bound, and then below another one, adds up to what is counted below
    the greater one. -/
theorem countRecords_range_without {m n : Nat} (hn : n ≤ slotBound) :
    countRecords c (List.range m) + countRecords (without c (List.range m)) (List.range n) =
      countRecords c (List.range (max m n)) := by
  by_cases hle : n ≤ m
  · -- The second bound is the lower one, and finds nothing.
    have hsubset : List.range n ⊆ List.range m := by
      intro slot hslot
      rw [List.mem_range] at hslot ⊢
      omega
    rw [countRecords_without_of_subset hsubset, Nat.max_eq_left hle, Nat.add_zero]
  · -- The second bound finds what lies between the two.
    obtain ⟨k, rfl⟩ := Nat.exists_eq_add_of_le (Nat.le_of_not_le hle)
    have hsplit : List.range (m + k) = List.range m ++ (List.range k).map (m + ·) := List.range_add
    have hbetween : countRecords (without c (List.range m)) ((List.range k).map (m + ·)) =
        countRecords c ((List.range k).map (m + ·)) := by
      apply countRecords_without_of_disjoint
      · intro s hs
        rw [List.mem_range] at hs
        omega
      · intro s hs
        obtain ⟨i, hi, rfl⟩ := List.mem_map.1 hs
        rw [List.mem_range] at hi
        omega
      · intro s hs
        obtain ⟨i, -, rfl⟩ := List.mem_map.1 hs
        rw [List.mem_range]
        omega
    rw [Nat.max_eq_right (Nat.le_add_right m k), hsplit, countRecords_append, countRecords_append,
      hbetween, countRecords_without_of_subset (List.Subset.refl _), Nat.zero_add]

/-! ## The two ways of collecting -/

/-- A log whose engine has lost the records of some slots. -/
def clear (log : OperationLog) (slots : List Nat) : OperationLog :=
  { log with contents := without log.contents slots }

/-- Removing a slot that is not the last one leaves the contents without it, and tells whether there
    was a record. -/
theorem removeSlot_eq {slot : Nat} (hlast : (slot : Int) ≠ log.lastIndex) :
    log.removeSlot .none slot =
      .ok ((log.contents.get? (ofSlot slot)).isSome, log.clear [slot]) := by
  unfold removeSlot
  rw [if_neg (by omega), if_neg hlast]
  simp only [Fault.get_none, mapError_ok, ok_bind, Int.toNat_natCast]
  -- With a record, the batch is the removal of this slot.
  cases hget : log.contents.get? (ofSlot slot) with
  | some record => rfl
  | none =>
    -- Nothing is written then, and there is nothing to remove.
    have hsame : without log.contents [slot] = log.contents := by
      have hfilter := without_filter log.contents [slot]
      rw [List.filter_cons_of_neg (by simp [hget])] at hfilter
      exact hfilter.symm
    show Except.ok (false, log) = .ok (false, log.clear [slot])
    rw [clear, hsame]

/-- The slots below the bound of a collection are slots of the log, and not the last one. -/
theorem Shows.lt_of_lt_collectBound (h : log.Shows A) (index : Int) {slot : Nat}
    (hslot : slot < (log.collectBound index).toNat) :
    slot < slotBound ∧ (slot : Int) ≠ log.lastIndex := by
  have hbounded := lt_slotBound_of_le h.represents.bounded
  have hlength := h.length
  unfold collectBound lastIndex at hslot
  unfold lastIndex
  omega

/-- A collection leaves the contents without the slots below its bound, and tells how many records
    there were. -/
theorem Shows.removeBefore_eq (h : log.Shows A) (index : Int) :
    let slots := List.range (log.collectBound index).toNat
    log.removeBefore .none index = (.ok (countRecords log.contents slots), log.clear slots) := by
  intro slots
  unfold OperationLog.removeBefore
  -- Without a positive bound there is no slot below it.
  by_cases hbound : log.collectBound index ≤ 0
  · have hnone : slots = [] := by
      show List.range (log.collectBound index).toNat = []
      rw [Int.toNat_of_nonpos hbound, List.range_zero]
    rw [if_pos hbound, hnone]
    rfl
  rw [if_neg hbound]
  have hlt : (log.collectBound index).toNat < slotBound := by
    have hbounded := lt_slotBound_of_le h.represents.bounded
    have hlength := h.length
    unfold collectBound lastIndex
    omega
  -- The cursor finds the keys of the slots that have a record, and of no others.
  have hpresent : presentBelow A (log.collectBound index).toNat =
      slots.filter fun slot => (log.contents.get? (ofSlot slot)).isSome := by
    apply List.filter_congr
    intro slot hslot
    have hslotBound := (h.lt_of_lt_collectBound index (List.mem_range.1 hslot)).1
    exact (h.represents.get?_isSome hslotBound).symm
  have hkeys := h.represents.keysBelow_eq hlt
  rw [hpresent] at hkeys
  have hcount : (keysBelow log.contents (log.collectBound index).toNat).length =
      countRecords log.contents slots := by
    rw [hkeys, List.length_map, ← List.countP_eq_length_filter]
    rfl
  have hcontents : log.contents.applyBatch
      ((keysBelow log.contents (log.collectBound index).toNat).map .delete) =
        without log.contents slots := by
    rw [hkeys, ← without_filter]
    rfl
  show (Except.ok (keysBelow log.contents (log.collectBound index).toNat).length,
    { log with
      contents := log.contents.applyBatch
        ((keysBelow log.contents (log.collectBound index).toNat).map .delete) }) = _
  rw [hcount, hcontents]
  rfl

theorem collectBound_clear (log : OperationLog) (slots : List Nat) (index : Int) :
    (log.clear slots).collectBound index = log.collectBound index := rfl

/-- One collection after another is the collection below the greater index, and the counts add
    up. -/
theorem Shows.removeBefore_removeBefore (h : log.Shows A) (index next : Int) :
    let first := log.removeBefore .none index
    let second := first.2.removeBefore .none next
    ∃ count count', first.1 = .ok count ∧ second.1 = .ok count' ∧
      log.removeBefore .none (max index next) = (.ok (count + count'), second.2) := by
  intro first second
  have hfirst : first = _ := h.removeBefore_eq index
  have hsecond : second = _ := (h.removeBefore index).2.removeBefore_eq next
  have hlog : (log.removeBefore .none index).2 = _ := congrArg Prod.snd (h.removeBefore_eq index)
  rw [hlog, collectBound_clear] at hsecond
  -- The end of the log bounds both, so the bound of the greater index is the greater bound.
  have hmax : (log.collectBound (max index next)).toNat =
      max (log.collectBound index).toNat (log.collectBound next).toNat := by
    unfold collectBound
    omega
  have hbound : (log.collectBound next).toNat ≤ slotBound := by
    have hbounded := lt_slotBound_of_le h.represents.bounded
    have hlength := h.length
    unfold collectBound lastIndex
    omega
  refine ⟨_, _, congrArg Prod.fst hfirst, congrArg Prod.fst hsecond, ?_⟩
  rw [h.removeBefore_eq, hsecond, hmax]
  show (Except.ok (countRecords _ _), clear log _) =
    (Except.ok (countRecords log.contents (List.range (log.collectBound index).toNat) +
      countRecords (without log.contents (List.range (log.collectBound index).toNat)) _),
      { log with contents := without (without log.contents _) _ })
  rw [countRecords_range_without hbound, without_range_range]
  rfl

end OperationLog

namespace LogHandle

open Host OperationLog SlotKey

/-! ## Sweeps -/

/-- Removes the records of slots one after another, and returns how many there were. -/
def removeSlots (f : Fault) (handle : LogHandle) : List Nat → Action Host Nat
  | [] => pure 0
  | slot :: slots => do
    let found ← handle.removeSlot f slot
    let count ← handle.removeSlots f slots
    return found.toNat + count

variable {f : Fault} {handle : LogHandle} {loc : Location} {h : Host} {log : OperationLog}
  {A : SlotList}

theorem Offers.removeSlot (ho : Offers handle loc h log) {slot : Nat}
    (hlast : (slot : Int) ≠ log.lastIndex) :
    ∃ h', (handle.removeSlot .none slot).perform h =
        (.ok (log.contents.get? (ofSlot slot)).isSome, h') ∧
      Offers handle loc h' (log.clear [slot]) := by
  have hlog := ho.log_eq
  refine ⟨(handle.update h (log.clear [slot])).2, ?_, ho.update_contents rfl rfl⟩
  simp only [Action.perform, LogHandle.removeSlot, hlog, removeSlot_eq hlast]

/-- A sweep over slots leaves the log without them, and counts the records. -/
theorem Offers.removeSlots {slots : List Nat} (ho : Offers handle loc h log) (hnodup : slots.Nodup)
    (hslots : ∀ s ∈ slots, s < slotBound ∧ (s : Int) ≠ log.lastIndex) :
    ∃ h', (handle.removeSlots .none slots).perform h =
        (.ok (countRecords log.contents slots), h') ∧
      Offers handle loc h' (log.clear slots) := by
  -- By induction on the slots; each step leaves the records of the slots that are still to come.
  induction slots generalizing h log with
  | nil => exact ⟨h, rfl, ho⟩
  | cons slot slots ih =>
    obtain ⟨hfresh, hnodup⟩ := List.nodup_cons.1 hnodup
    obtain ⟨⟨hslot, hlast⟩, hslots⟩ := List.forall_mem_cons.1 hslots
    obtain ⟨h₁, hremove, ho₁⟩ := ho.removeSlot hlast
    obtain ⟨h₂, hsweep, ho₂⟩ := ih ho₁ hnodup hslots
    have hothers : countRecords (log.clear [slot]).contents slots =
        countRecords log.contents slots := by
      apply countRecords_without_of_disjoint
      · intro s hs
        rw [List.mem_singleton.1 hs]
        exact hslot
      · intro s hs
        exact (hslots s hs).1
      · intro s hs hsame
        rw [List.mem_singleton.1 hsame] at hs
        exact hfresh hs
    have hcount : (log.contents.get? (ofSlot slot)).isSome.toNat +
        countRecords (log.clear [slot]).contents slots =
          countRecords log.contents (slot :: slots) := by
      rw [hothers, countRecords, countRecords, List.countP_cons, Nat.add_comm]
      cases (log.contents.get? (ofSlot slot)).isSome <;> rfl
    have hclear : (log.clear [slot]).clear slots = log.clear (slot :: slots) := by
      show clear _ _ = clear log ([slot] ++ slots)
      unfold clear
      rw [without_append]
    rw [hclear] at ho₂
    refine ⟨h₂, ?_, ho₂⟩
    unfold LogHandle.removeSlots
    rw [Action.perform_bind_of_ok hremove, Action.perform_bind_of_ok hsweep, hcount]
    rfl

theorem Offers.removeBefore (ho : Offers handle loc h log) (f : Fault) (index : Int) :
    ∃ h', (handle.removeBefore f index).perform h = ((log.removeBefore f index).1, h') ∧
      Offers handle loc h' (log.removeBefore f index).2 := by
  obtain ⟨hlength, hterm⟩ := remembered_removeBefore f log index
  have hlog := ho.log_eq
  refine ⟨(handle.update h (log.removeBefore f index).2).2, ?_, ho.update_contents hlength hterm⟩
  simp only [Action.perform, LogHandle.removeBefore, hlog]

/-- On a log that shows a list, a collection below an index is a sweep over the slots below its
    bound. -/
theorem Offers.removeBefore_eq_sweep (ho : Offers handle loc h log) (hshows : log.Shows A)
    (index : Int) :
    let slots := List.range (log.collectBound index).toNat
    ∃ scanned swept,
      (handle.removeBefore .none index).perform h =
        (.ok (countRecords log.contents slots), scanned) ∧
      (handle.removeSlots .none slots).perform h =
        (.ok (countRecords log.contents slots), swept) ∧
      Offers handle loc scanned (log.clear slots) ∧ Offers handle loc swept (log.clear slots) := by
  intro slots
  obtain ⟨scanned, hscan, hscanned⟩ := ho.removeBefore .none index
  -- Each slot is removed once, and none of them is the last one.
  have hnodup : slots.Nodup := List.nodup_range
  obtain ⟨swept, hsweep, hswept⟩ := ho.removeSlots hnodup
    (fun s hs => hshows.lt_of_lt_collectBound index (List.mem_range.1 hs))
  rw [hshows.removeBefore_eq index] at hscan hscanned
  exact ⟨scanned, swept, hscan, hsweep, hscanned, hswept⟩

/-- After a collection below an index, the collection below a second one leaves what the collection
    below the greater of the two leaves at once, and the counts add up. -/
theorem Offers.removeBefore_next {scanned : Host} {index : Int} (ho : Offers handle loc h log)
    (hshows : log.Shows A)
    (hscanned : Offers handle loc scanned
      (log.clear (List.range (log.collectBound index).toNat))) (next : Int) :
    ∃ count' scanned' once,
      (handle.removeBefore .none next).perform scanned = (.ok count', scanned') ∧
      (handle.removeBefore .none (max index next)).perform h =
        (.ok (countRecords log.contents (List.range (log.collectBound index).toNat) + count'),
          once) ∧
      handle.log scanned' = handle.log once := by
  obtain ⟨count, count', hfirst, hsecond, honce⟩ := hshows.removeBefore_removeBefore index next
  rw [hshows.removeBefore_eq index] at hfirst hsecond honce
  obtain ⟨scanned', hscan', hscanned'⟩ := hscanned.removeBefore .none next
  obtain ⟨once, hscanOnce, hscannedOnce⟩ := ho.removeBefore .none (max index next)
  rw [hsecond] at hscan'
  rw [honce] at hscanOnce hscannedOnce
  obtain rfl := Except.ok.inj hfirst
  exact ⟨count', scanned', once, hscan', hscanOnce,
    hscanned'.log_eq.trans hscannedOnce.log_eq.symm⟩

namespace Session

theorem Keeps.offers {parent : String} {s : Session} (hk : Keeps parent loc s log)
    (hopen : s.handle = some handle) : Offers handle loc s.host log := by
  unfold Keeps at hk
  rw [hopen] at hk
  exact hk.2

/-- Whatever is done to a log that was empty at first, and whichever calls fail, collecting below an
    index leaves the log that removing every slot below the bound one by one leaves, and returns how
    many of them had a record. It does nothing where the bound is not positive; the length record
    and the slots from the bound on stay; and a collection after another one makes of the two the
    collection below the greater index, and the counts add up. -/
theorem scan_agrees_with_sweep {parent : String} {h h' : Host} {handle : LogHandle}
    (hopen : (openBelow .none parent).perform h = (.ok handle, h'))
    (hempty : h'.contents handle.engine = Contents.empty) (events : List Event) :
    let s := Session.run parent ⟨h, none⟩ events
    ∀ handle ∈ s.handle, ∀ index : Int,
      let log := handle.log s.host
      let bound := min index ((log.length : Int) - 1)
      ∃ count scanned swept,
        (handle.removeBefore .none index).perform s.host = (.ok count, scanned) ∧
        (handle.removeSlots .none (List.range bound.toNat)).perform s.host = (.ok count, swept) ∧
        handle.log scanned = handle.log swept ∧
        (bound ≤ 0 → count = 0 ∧ handle.log scanned = log) ∧
        (handle.log scanned).length = log.length ∧
        (handle.log scanned).lastTerm = log.lastTerm ∧
        (handle.log scanned).contents.get? lengthKey = log.contents.get? lengthKey ∧
        (∀ slot : Nat, bound ≤ slot → slot < slotBound →
          (handle.log scanned).contents.get? (ofSlot slot) = log.contents.get? (ofSlot slot)) ∧
        ∀ next : Int, ∃ count' scanned' once,
          (handle.removeBefore .none next).perform scanned = (.ok count', scanned') ∧
          (handle.removeBefore .none (max index next)).perform s.host =
            (.ok (count + count'), once) ∧
          handle.log scanned' = handle.log once := by
  intro s handle hhandle index log bound
  obtain ⟨loc, log₀, hk₀, htracks₀⟩ := keeps_of_opened hopen hempty
  obtain ⟨log', hk, A, hshows, -⟩ := hk₀.run htracks₀ events
  have hlog : log = log' := hk.shown handle hhandle
  -- The log that is shown is the one that is kept; from here on nothing is said about the run.
  rw [← hlog] at hk hshows
  have ho : Offers handle loc s.host log := hk.offers hhandle
  obtain ⟨scanned, swept, hscan, hsweep, hscanned, hswept⟩ := ho.removeBefore_eq_sweep hshows index
  have hbounds : ∀ s ∈ List.range bound.toNat, s < slotBound :=
    fun s hs => (hshows.lt_of_lt_collectBound index (List.mem_range.1 hs)).1
  refine ⟨_, scanned, swept, hscan, hsweep, hscanned.log_eq.trans hswept.log_eq.symm, ?_, ?_, ?_,
    ?_, ?_, ho.removeBefore_next hshows hscanned⟩
  · intro hnone
    have hslots : List.range bound.toNat = [] := by
      rw [Int.toNat_of_nonpos hnone, List.range_zero]
    rw [hscanned.log_eq]
    show countRecords log.contents (List.range bound.toNat) = 0 ∧
      log.clear (List.range bound.toNat) = log
    rw [hslots]
    exact ⟨rfl, rfl⟩
  · rw [hscanned.log_eq]
    rfl
  · rw [hscanned.log_eq]
    rfl
  · rw [hscanned.log_eq]
    exact get?_lengthKey_without _ _
  · intro slot hslot hlt
    have habove : slot ∉ List.range bound.toNat := by
      rw [List.mem_range]
      omega
    rw [hscanned.log_eq]
    show (without log.contents (List.range bound.toNat)).get? (ofSlot slot) = _
    rw [get?_ofSlot_without hbounds hlt, if_neg habove]

/-- On an empty disk, with a gap in the log: of the two slots below the bound one has a record, and
    both ways remove it and count it. -/
theorem scan_agrees_with_sweep_on_gap :
    let h := Host.ofDisk (Disk.empty ["data"])
    let opened := (openBelow .none "/data").perform h
    let events : List Event := [.openLog .none,
      .request .none (.appendBatch [.noOp 1, .noOp 1, .put "u" "k" "v" 2]),
      .request .none (.removeSlot 0)]
    let s := Session.run "/data" ⟨h, none⟩ events
    let handle : LogHandle := ⟨"/data/#binlog", 0, 3, 2⟩
    opened.1 = .ok ⟨"/data/#binlog", 0, 0, noTerm⟩ ∧
      opened.2.contents 0 = Contents.empty ∧ s.handle = some handle ∧
      ∃ scanned swept, (handle.removeBefore .none 9).perform s.host = (.ok 1, scanned) ∧
        (handle.removeSlots .none [0, 1]).perform s.host = (.ok 1, swept) ∧
        handle.log scanned = handle.log swept := by
  intro h opened events s handle
  have hopen : opened = (.ok ⟨"/data/#binlog", 0, 0, noTerm⟩, opened.2) := rfl
  have hempty : opened.2.contents 0 = Contents.empty := rfl
  have hhandle : s.handle = some handle := by decide +kernel
  have hcount : ((handle.removeBefore .none 9).perform s.host).1 = .ok 1 := by decide +kernel
  obtain ⟨count, scanned, swept, hscan, hsweep, hsame, -⟩ :=
    scan_agrees_with_sweep hopen hempty events handle hhandle 9
  have hone : count = 1 := by
    have hanswer : ((handle.removeBefore .none 9).perform s.host).1 = .ok count :=
      congrArg Prod.fst hscan
    rw [hcount] at hanswer
    exact (Except.ok.inj hanswer).symm
  rw [hone] at hscan hsweep
  exact ⟨congrArg Prod.fst hopen, hempty, hhandle, scanned, swept, hscan, hsweep, hsame⟩

end Session

end LogHandle

end ReplicaStore
