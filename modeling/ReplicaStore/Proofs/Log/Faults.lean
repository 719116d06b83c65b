import ReplicaStore.Proofs.Log.Represents

/-! # Operations whose calls fail

    The calls that an operation makes to the engine may fail, in any combination. A fault never
    makes an operation do something else: where the operation succeeds, it has done what it does
    without the fault, and where it fails, the log is as it was. One operation is an exception:
    a collection reclaims the engine's space when its records are gone already, and if only that
    call fails they stay gone.

    * `appendBatch_cases`, `truncate_cases`, `removeSlot_cases`, `removeBefore_cases`: what an
      operation has done, and the same under a fault as without.
    * `ask_of_ok`, `ask_of_error`: the same for every request.
    * `Shows.ask`: under a fault, a log that shows a list shows the list before or after. -/

namespace ReplicaStore

/-! ## Calls -/

namespace Fault

variable {f : Fault} {c c' : Contents}

theorem eq_of_get {key : Bytes} {v? : Option Bytes} (h : f.get c key = .ok v?) :
    v? = c.get? key := by
  obtain ⟨u, -, hvalue⟩ := exists_of_bind_eq_ok h
  cases hvalue
  rfl

theorem eq_of_write {batch : Batch} (h : f.write c batch = .ok c') : c' = c.applyBatch batch := by
  obtain ⟨u, -, hcontents⟩ := exists_of_bind_eq_ok h
  cases hcontents
  rfl

end Fault

namespace OperationLog

open SlotKey

variable {f : Fault} {c : Contents} {log log' : OperationLog} {A : SlotList}

/-! ## Operations that succeed -/

theorem readRecord_of_ok {slot : Nat} {e? : Option Entry} (h : readRecord f c slot = .ok e?) :
    readRecord .none c slot = .ok e? := by
  unfold readRecord at h ⊢
  obtain ⟨record, hget, hrest⟩ := exists_of_bind_eq_ok h
  -- A look-up that came through has found what is there.
  rw [Fault.eq_of_get (eq_ok_of_mapError hget)] at hrest
  exact hrest

theorem readSlot_of_ok {index : Int} {e? : Option Entry} (h : log.readSlot f index = .ok e?) :
    log.readSlot .none index = .ok e? := by
  unfold readSlot at h ⊢
  by_cases hnegative : index < 0
  · rw [if_pos hnegative] at h
    cases h
  rw [if_neg hnegative] at h ⊢
  by_cases hend : log.length ≤ index
  · rw [if_pos hend] at h ⊢
    exact h
  rw [if_neg hend] at h ⊢
  exact readRecord_of_ok h

/-- The log that contents of a known length hold. -/
def openAtLength (f : Fault) (c : Contents) (length : Nat) : Except Error OperationLog :=
  if length = 0 then .ok ⟨c, 0, noTerm⟩
  else do
    match ← readRecord f c (length - 1) with
    | none => throw (.missingTail length)
    | some entry => return ⟨c, length, entry.term⟩

theorem openAtLength_of_ok {length : Nat} (h : openAtLength f c length = .ok log) :
    openAtLength .none c length = .ok log := by
  unfold openAtLength at h ⊢
  by_cases hzero : length = 0
  · rw [if_pos hzero] at h ⊢
    exact h
  rw [if_neg hzero] at h ⊢
  obtain ⟨e?, hrecord, hrest⟩ := exists_of_bind_eq_ok h
  rw [readRecord_of_ok hrecord, ok_bind]
  exact hrest

theorem openOn_of_ok (h : openOn f c = .ok log) : openOn .none c = .ok log := by
  unfold openOn at h ⊢
  obtain ⟨record, hget, hlength⟩ := exists_of_bind_eq_ok h
  rw [Fault.eq_of_get (eq_ok_of_mapError hget)] at hlength
  rw [Fault.get_none, mapError_ok, ok_bind]
  -- The length comes from the same record, and the last slot's record is looked up after it.
  cases hrecord : c.get? lengthKey with
  | none =>
    rw [hrecord] at hlength
    have hopen : openAtLength f c 0 = .ok log := hlength
    exact openAtLength_of_ok hopen
  | some bytes =>
    rw [hrecord] at hlength
    cases bytes with
    | nil =>
      have hopen : openAtLength f c 0 = .ok log := hlength
      exact openAtLength_of_ok hopen
    | cons b bs =>
      obtain ⟨length, hread, hrest⟩ := exists_of_bind_eq_ok hlength
      simp only [hread, ok_bind]
      exact openAtLength_of_ok hrest

/-- What an append that succeeds has done: nothing, if there was nothing to append; else the records
    and the new length are in the contents. -/
theorem appendBatch_cases {entries : List Entry} (h : log.appendBatch f entries = .ok log') :
    entries = [] ∧ log' = log ∨
      ∃ last records, entries.getLast? = some last ∧
        entries.mapM Record.encode = .ok records ∧ log.length + entries.length ≤ maxLength ∧
        log' = ⟨log.contents.applyBatch
            (slotWrites log.length records ++ [lengthWrite (log.length + entries.length)]),
          log.length + entries.length, last.term⟩ := by
  unfold appendBatch at h
  -- An empty batch is told by its missing last entry, and ends before anything is encoded.
  cases hlast : entries.getLast? with
  | none =>
    rw [hlast, Except.ok.injEq] at h
    exact .inl ⟨List.getLast?_eq_none_iff.1 hlast, h.symm⟩
  | some last =>
    rw [hlast] at h
    obtain ⟨records, hencode, hrest⟩ := exists_of_bind_eq_ok h
    simp only at hrest
    by_cases hlong : maxLength < log.length + entries.length
    · rw [if_pos hlong] at hrest
      cases hrest
    rw [if_neg hlong] at hrest
    obtain ⟨contents, hwrite, hlog⟩ := exists_of_bind_eq_ok hrest
    rw [Fault.eq_of_write (eq_ok_of_mapError hwrite)] at hlog
    cases hlog
    exact .inr ⟨last, records, rfl, eq_ok_of_mapError hencode, Nat.not_lt.1 hlong, rfl⟩

theorem appendBatch_of_ok {entries : List Entry} (h : log.appendBatch f entries = .ok log') :
    log.appendBatch .none entries = .ok log' := by
  rcases appendBatch_cases h with ⟨rfl, rfl⟩ | ⟨last, records, hlast, hencode, hlength, rfl⟩
  · rfl
  · unfold appendBatch
    simp only [hlast, hencode, mapError_ok, ok_bind, if_neg (Nat.not_lt.2 hlength),
      Fault.write_none]
    rfl

/-- What was appended, records can hold, and the length too. -/
theorem fits_of_appendBatch {entries : List Entry} (hlength : log.length ≤ maxLength)
    (h : log.appendBatch f entries = .ok log') :
    (∀ e ∈ entries, e.Fits) ∧ log.length + entries.length ≤ maxLength := by
  rcases appendBatch_cases h with ⟨rfl, -⟩ | ⟨-, records, -, hencode, hbounded, -⟩
  · exact ⟨fun e he => absurd he (List.not_mem_nil), hlength⟩
  · exact ⟨Record.fits_of_mapM_encode hencode, hbounded⟩

theorem termAt_of_ok {length : Nat} {term : Int64} (h : log.termAt f length = .ok term) :
    log.termAt .none length = .ok term := by
  unfold termAt at h ⊢
  by_cases hzero : length = 0
  · rw [if_pos hzero] at h ⊢
    exact h
  rw [if_neg hzero] at h ⊢
  obtain ⟨e?, hrecord, hrest⟩ := exists_of_bind_eq_ok h
  rw [readRecord_of_ok hrecord, ok_bind]
  exact hrest

/-- What a cut that succeeds has done: nothing, if the log had that length; else the slots behind
    are gone. -/
theorem truncate_cases {index : Int} (h : log.truncate f index = .ok log') :
    (max index (-1) + 1).toNat ≤ maxLength ∧
      ((max index (-1) + 1).toNat = log.length ∧ log' = log ∨
        ∃ length term, (max index (-1) + 1).toNat = length ∧ length < log.length ∧
          log.termAt f length = .ok term ∧
          log' = ⟨log.contents.applyBatch (slotDeletes length (log.length - length) ++
            [lengthWrite length]), length, term⟩) := by
  unfold truncate at h
  simp only at h
  generalize (max index (-1) + 1).toNat = length at h ⊢
  -- The checks in their order: a length that wraps, a length behind the log, the length that is
  -- there.
  by_cases hwrapped : maxLength < length
  · rw [if_pos hwrapped] at h
    cases h
  rw [if_neg hwrapped] at h
  refine ⟨Nat.not_lt.1 hwrapped, ?_⟩
  by_cases hbeyond : log.length < length
  · rw [if_pos hbeyond] at h
    cases h
  rw [if_neg hbeyond] at h
  by_cases hsame : length = log.length
  · rw [if_pos hsame, Except.ok.injEq] at h
    exact .inl ⟨hsame, h.symm⟩
  rw [if_neg hsame] at h
  obtain ⟨term, hterm, hrest⟩ := exists_of_bind_eq_ok h
  obtain ⟨contents, hwrite, hlog⟩ := exists_of_bind_eq_ok hrest
  rw [Fault.eq_of_write (eq_ok_of_mapError hwrite)] at hlog
  cases hlog
  exact .inr ⟨length, term, rfl, by omega, hterm, rfl⟩

theorem truncate_of_ok {index : Int} (h : log.truncate f index = .ok log') :
    log.truncate .none index = .ok log' := by
  unfold truncate
  simp only
  rcases truncate_cases h with ⟨hle, ⟨hsame, rfl⟩ | ⟨length, term, hlength, hlt, hterm, rfl⟩⟩
  · rw [if_neg (Nat.not_lt.2 hle), if_neg (by omega), if_pos hsame]
  · rw [if_neg (Nat.not_lt.2 hle), hlength, if_neg (by omega), if_neg (by omega),
      termAt_of_ok hterm, ok_bind, Fault.write_none]
    rfl

/-- What a removal that succeeds has done: nothing, if there was no record; else it is gone. -/
theorem removeSlot_cases {index : Int} {found : Bool}
    (h : log.removeSlot f index = .ok (found, log')) :
    ¬ index < 0 ∧ index ≠ log.lastIndex ∧
      (log.contents.get? (ofSlot index.toNat) = none ∧ found = false ∧ log' = log ∨
        ∃ record, log.contents.get? (ofSlot index.toNat) = some record ∧ found = true ∧
          log' = { log with
            contents := log.contents.applyBatch [.delete (ofSlot index.toNat)] }) := by
  unfold removeSlot at h
  by_cases hnegative : index < 0
  · rw [if_pos hnegative] at h
    cases h
  rw [if_neg hnegative] at h
  by_cases hlast : index = log.lastIndex
  · rw [if_pos hlast] at h
    cases h
  rw [if_neg hlast] at h
  obtain ⟨record?, hget, hrest⟩ := exists_of_bind_eq_ok h
  rw [Fault.eq_of_get (eq_ok_of_mapError hget)] at hrest
  refine ⟨hnegative, hlast, ?_⟩
  -- The record is looked up before it is removed, and without one nothing is written.
  cases hrecord : log.contents.get? (ofSlot index.toNat) with
  | none =>
    rw [hrecord] at hrest
    cases hrest
    exact .inl ⟨rfl, rfl, rfl⟩
  | some record =>
    rw [hrecord] at hrest
    obtain ⟨contents, hwrite, hlog⟩ := exists_of_bind_eq_ok hrest
    rw [Fault.eq_of_write (eq_ok_of_mapError hwrite)] at hlog
    cases hlog
    exact .inr ⟨record, rfl, rfl, rfl⟩

theorem removeSlot_of_ok {index : Int} {found : Bool}
    (h : log.removeSlot f index = .ok (found, log')) :
    log.removeSlot .none index = .ok (found, log') := by
  obtain ⟨hnegative, hlast, hremoved⟩ := removeSlot_cases h
  unfold removeSlot
  rw [if_neg hnegative, if_neg hlast]
  rcases hremoved with ⟨hnone, rfl, rfl⟩ | ⟨record, hsome, rfl, rfl⟩
  · simp only [Fault.get_none, mapError_ok, ok_bind, hnone]
    rfl
  · simp only [Fault.get_none, mapError_ok, ok_bind, hsome, Fault.write_none]
    rfl

/-- What a collection has done, whatever fails: nothing, or the records below its bound are gone. -/
theorem removeBefore_cases (f : Fault) (log : OperationLog) (index : Int) :
    (log.removeBefore f index).2 = log ∨
      (log.removeBefore f index).2 = { log with
        contents := log.contents.applyBatch
          ((keysBelow log.contents (log.collectBound index).toNat).map .delete) } := by
  unfold removeBefore
  simp only
  by_cases hbound : log.collectBound index ≤ 0
  · rw [if_pos hbound]
    exact .inl rfl
  rw [if_neg hbound]
  -- The keys are removed by one batch, so either all of them are gone or none.
  split
  · exact .inl rfl
  · rename_i contents hremoved
    obtain ⟨u, -, hwritten⟩ := exists_of_bind_eq_ok hremoved
    rw [Fault.eq_of_write hwritten]
    exact .inr rfl

/-- Whether, of the calls of a collection that has a slot to look at, only the last one fails: the
    one that reclaims the space of what is gone by then. -/
def OnlyCompactionFails (f : Fault) (log : OperationLog) (index : Int) : Prop :=
  0 < log.collectBound index ∧ f.fails .status = false ∧
    f.fails (.write ((keysBelow log.contents (log.collectBound index).toNat).map .delete)) = false ∧
    f.fails .compact = true

/-- A collection of which only the compaction fails has removed what it removes without a fault. -/
theorem removeBefore_of_onlyCompactionFails {index : Int}
    (h : OnlyCompactionFails f log index) :
    log.removeBefore f index =
      (.error (.engine Call.compact.failure), (log.removeBefore .none index).2) := by
  obtain ⟨hbound, hstatus, hwrite, hcompact⟩ := h
  unfold removeBefore
  simp only [if_neg (Int.not_le.2 hbound), Fault.status, Fault.write, Fault.check, hstatus, hwrite,
    hcompact, Bool.false_eq_true, if_false, if_true]
  rfl

/-- Apart from that, a collection that fails has left the log as it was. -/
theorem removeBefore_of_error {index : Int} {e : Error}
    (h : (log.removeBefore f index).1 = .error e)
    (hcompaction : ¬ OnlyCompactionFails f log index) :
    (log.removeBefore f index).2 = log := by
  unfold removeBefore at h ⊢
  simp only at h ⊢
  by_cases hbound : log.collectBound index ≤ 0
  · rw [if_pos hbound] at h
    cases h
  rw [if_neg hbound] at h ⊢
  split at h
  · rfl
  · -- The records are gone, so the write went through, and it was the compaction that failed.
    exfalso
    rename_i contents hremoved
    obtain ⟨u, hstatus, hwritten⟩ := exists_of_bind_eq_ok hremoved
    obtain ⟨u', hwrite, -⟩ := exists_of_bind_eq_ok hwritten
    apply hcompaction
    refine ⟨Int.not_le.1 hbound, Fault.check_eq_ok_iff.1 hstatus, Fault.check_eq_ok_iff.1 hwrite,
      ?_⟩
    cases hcompact : f.fails .compact with
    | true => rfl
    | false =>
      rw [Fault.check_eq_ok_iff.2 hcompact] at h
      cases h

theorem removeBefore_of_ok {index : Int} {count : Nat}
    (h : (log.removeBefore f index).1 = .ok count) :
    log.removeBefore f index = log.removeBefore .none index := by
  unfold removeBefore at h ⊢
  simp only at h ⊢
  by_cases hbound : log.collectBound index ≤ 0
  · rw [if_pos hbound, if_pos hbound]
  rw [if_neg hbound] at h ⊢
  split at h
  · cases h
  · rename_i contents hremoved
    obtain ⟨u, hstatus, hwritten⟩ := exists_of_bind_eq_ok hremoved
    -- An answer tells that the compaction came through, too.
    obtain ⟨u', hcompact⟩ : ∃ u, f.check .compact = .ok u := by
      cases hcompact : f.check .compact with
      | ok u => exact ⟨u, rfl⟩
      | error e =>
        rw [hcompact] at h
        cases h
    rw [if_neg hbound, hcompact, Fault.eq_of_write hwritten]
    rfl

/-! ## Requests -/

/-- The log after an operation that gives the log after it, or as it was. -/
def changed (log : OperationLog) :
    Except Error OperationLog → Except Error SlotList.Reply × OperationLog
  | .ok log' => (.ok .done, log')
  | .error e => (.error e, log)

/-- The answer to a request, and the log after it. -/
def ask (f : Fault) (log : OperationLog) :
    SlotList.Request → Except Error SlotList.Reply × OperationLog
  | .append e => log.changed (log.append f e)
  | .appendBatch entries => log.changed (log.appendBatch f entries)
  | .readSlot index => ((log.readSlot f index.toInt).map .entry, log)
  | .truncate index => log.changed (log.truncate f index.toInt)
  | .removeSlot index =>
    match log.removeSlot f index.toInt with
    | .ok (present, log') => (.ok (.found present), log')
    | .error e => (.error e, log)
  | .removeBefore index =>
    let (r, log') := log.removeBefore f index.toInt
    (r.map .removed, log')

variable {r : SlotList.Request}

theorem changed_of_ok {result result' : Except Error OperationLog} {reply : SlotList.Reply}
    (himp : ∀ log', result = .ok log' → result' = .ok log')
    (h : (log.changed result).1 = .ok reply) : log.changed result = log.changed result' := by
  cases result with
  | error e => cases h
  | ok log' => rw [himp log' rfl]

theorem changed_of_error {result : Except Error OperationLog} {e : Error}
    (h : (log.changed result).1 = .error e) : (log.changed result).2 = log := by
  cases result with
  | error e => rfl
  | ok log' => cases h

/-- A request that is answered under a fault has the answer and the effect that it has without. -/
theorem ask_of_ok {reply : SlotList.Reply} (h : (log.ask f r).1 = .ok reply) :
    log.ask f r = log.ask .none r := by
  -- One case for each request; what changes the log goes by the lemma on its success.
  cases r with
  | append e => exact changed_of_ok (fun _ => appendBatch_of_ok) h
  | appendBatch entries => exact changed_of_ok (fun _ => appendBatch_of_ok) h
  | truncate index => exact changed_of_ok (fun _ => truncate_of_ok) h
  | readSlot index =>
    simp only [ask] at h ⊢
    cases hread : log.readSlot f index.toInt with
    | error e =>
      rw [hread] at h
      cases h
    | ok e? => rw [readSlot_of_ok hread]
  | removeSlot index =>
    simp only [ask] at h ⊢
    cases hremove : log.removeSlot f index.toInt with
    | error e =>
      rw [hremove] at h
      cases h
    | ok removed =>
      obtain ⟨present, log'⟩ := removed
      rw [removeSlot_of_ok hremove]
  | removeBefore index =>
    simp only [ask] at h ⊢
    cases hremove : (log.removeBefore f index.toInt).1 with
    | error e =>
      rw [hremove] at h
      cases h
    | ok count => rw [← hremove, removeBefore_of_ok hremove]

/-- A request that fails has left the log as it was, but for a collection of which only the
    compaction fails. -/
theorem ask_of_error {e : Error} (h : (log.ask f r).1 = .error e)
    (hcompaction : ∀ index, r = .removeBefore index → ¬ OnlyCompactionFails f log index.toInt) :
    (log.ask f r).2 = log := by
  -- Every request but the collection writes last of all, if it writes.
  cases r with
  | append e => exact changed_of_error h
  | appendBatch entries => exact changed_of_error h
  | truncate index => exact changed_of_error h
  | readSlot index => rfl
  | removeSlot index =>
    simp only [ask] at h ⊢
    split at h
    · cases h
    · rfl
  | removeBefore index =>
    simp only [ask] at h ⊢
    cases hremove : (log.removeBefore f index.toInt).1 with
    | error e => exact removeBefore_of_error hremove (hcompaction index rfl)
    | ok count =>
      rw [hremove] at h
      cases h

theorem ask_of_onlyCompactionFails {index : Int64}
    (h : OnlyCompactionFails f log index.toInt) :
    log.ask f (.removeBefore index) =
      (.error (.engine Call.compact.failure), (log.ask .none (.removeBefore index)).2) := by
  simp only [ask, removeBefore_of_onlyCompactionFails h]
  rfl

/-! ## Requests and lists of slots -/

variable {B : SlotList}

theorem shows_changed_of_ok {result : Except Error OperationLog} (hok : result = .ok log')
    (hlog : log'.Shows B) :
    (log.changed result).1 = .ok .done ∧ (log.changed result).2.Shows B := by
  subst hok
  exact ⟨rfl, hlog⟩

theorem toInt_lt_slotBound (index : Int64) : index.toInt < slotBound := by
  have hlt := index.toInt_lt
  have hbound : (2 : Int) ^ 63 < slotBound := by decide
  omega

/-- A log that shows a list answers, without a fault, what the list answers. -/
theorem Shows.ask_none (h : log.Shows A) (hfits : r.Fits A) :
    (log.ask .none r).1 = (A.ask r).1 ∧ (log.ask .none r).2.Shows (A.ask r).2 := by
  cases r with
  | append e =>
    obtain ⟨log', hok, hshows⟩ := h.appendBatch hfits.entries hfits.length
    exact shows_changed_of_ok hok hshows
  | appendBatch entries =>
    obtain ⟨log', hok, hshows⟩ := h.appendBatch hfits.entries hfits.length
    exact shows_changed_of_ok hok hshows
  | readSlot index =>
    simp only [ask, SlotList.ask, h.readSlot (toInt_lt_slotBound index), true_and]
    exact h
  | truncate index =>
    have hcut := h.truncate index.toInt
    simp only [ask, SlotList.ask]
    -- Log and list are cut alike: both refuse, or both go on.
    cases hlist : A.truncate index.toInt with
    | error e =>
      rw [hlist] at hcut
      rw [hcut]
      exact ⟨rfl, h⟩
    | ok B =>
      rw [hlist] at hcut
      obtain ⟨log', hok, hshows⟩ := hcut
      exact shows_changed_of_ok hok hshows
  | removeSlot index =>
    have hremove := h.removeSlot (toInt_lt_slotBound index)
    simp only [ask, SlotList.ask]
    cases hlist : A.removeSlot index.toInt with
    | error e =>
      rw [hlist] at hremove
      rw [hremove]
      exact ⟨rfl, h⟩
    | ok removed =>
      obtain ⟨present, B⟩ := removed
      rw [hlist] at hremove
      obtain ⟨log', hok, hshows⟩ := hremove
      rw [hok]
      exact ⟨rfl, hshows⟩
  | removeBefore index =>
    obtain ⟨hcount, hshows⟩ := h.removeBefore index.toInt
    simp only [ask, SlotList.ask, hcount]
    exact ⟨rfl, hshows⟩

/-- A request that appends nothing can be carried out. -/
theorem Represents.fits_of_no_entries (h : Represents c A) (hr : r.entries = []) : r.Fits A := by
  constructor
  · rw [hr]
    intro e he
    cases he
  · rw [hr]
    exact h.bounded

/-- What is answered at all, the log could carry out. -/
theorem Shows.fits_of_ask {reply : SlotList.Reply} (h : log.Shows A)
    (hok : (log.ask f r).1 = .ok reply) : r.Fits A := by
  have hbounded : log.length ≤ maxLength := by
    rw [h.length]
    exact h.represents.bounded
  -- Only appending asks for room, and a batch that was appended has had it.
  have happend : ∀ entries, (log.changed (log.appendBatch f entries)).1 = .ok reply →
      (∀ e ∈ entries, e.Fits) ∧ A.length + entries.length ≤ maxLength := by
    intro entries hchanged
    cases hresult : log.appendBatch f entries with
    | error e =>
      rw [hresult] at hchanged
      cases hchanged
    | ok log' =>
      rw [← h.length]
      exact fits_of_appendBatch hbounded hresult
  cases r with
  | append e =>
    obtain ⟨hentries, hlength⟩ := happend [e] hok
    exact ⟨hentries, hlength⟩
  | appendBatch entries =>
    obtain ⟨hentries, hlength⟩ := happend entries hok
    exact ⟨hentries, hlength⟩
  -- The other requests append nothing.
  | readSlot index => exact h.represents.fits_of_no_entries rfl
  | truncate index => exact h.represents.fits_of_no_entries rfl
  | removeSlot index => exact h.represents.fits_of_no_entries rfl
  | removeBefore index => exact h.represents.fits_of_no_entries rfl

/-- Under any fault, a log that shows a list shows afterwards the list after the request, if it was
    answered, or as it was, if it failed; and the list after the request, too, if only the
    compaction failed. -/
theorem Shows.ask (h : log.Shows A) (f : Fault) (r : SlotList.Request) :
    (∃ reply, (log.ask f r).1 = .ok reply ∧ (A.ask r).1 = .ok reply ∧
        (log.ask f r).2.Shows (A.ask r).2) ∨
      ((∃ e, (log.ask f r).1 = .error e) ∧
        ((log.ask f r).2 = log ∨
          r.entries = [] ∧ (log.ask f r).2.Shows (A.ask r).2)) := by
  -- An answer is the one without a fault; a failure has changed nothing, apart from the compaction.
  cases hanswer : (log.ask f r).1 with
  | ok reply =>
    obtain ⟨hlist, hshows⟩ := h.ask_none (h.fits_of_ask hanswer)
    rw [← ask_of_ok hanswer] at hlist hshows
    exact .inl ⟨reply, rfl, hlist.symm.trans hanswer, hshows⟩
  | error e =>
    refine .inr ⟨⟨e, rfl⟩, ?_⟩
    by_cases hcompaction : ∃ index, r = .removeBefore index ∧ OnlyCompactionFails f log index.toInt
    · obtain ⟨index, rfl, honly⟩ := hcompaction
      have hfits : (SlotList.Request.removeBefore index).Fits A :=
        h.represents.fits_of_no_entries rfl
      rw [ask_of_onlyCompactionFails honly]
      exact .inr ⟨rfl, (h.ask_none hfits).2⟩
    · left
      apply ask_of_error hanswer
      intro index hr honly
      exact hcompaction ⟨index, hr, honly⟩

end OperationLog

end ReplicaStore
