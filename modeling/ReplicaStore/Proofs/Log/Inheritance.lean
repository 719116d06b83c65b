import ReplicaStore.Proofs.Log.FaultySession
import ReplicaStore.Proofs.Log.Recovery

/-! # A log opened on contents that it did not write

    An engine may hold anything when its log is opened: records in slots past the length, keys that
    no log uses, a length record in another spelling. The log shows the slots below the length, and
    nothing is known of what lies past it. Still, no record that was left there is ever shown: the
    log grows by appending only, and appending writes every slot that it exposes.

    Beside a run, a ghost notes for every slot where its entry comes from. What is read of the log
    is then what the ghost says, and the last slot can always be read.

    * `Origin`, `Origins`: the ghost.
    * `Inherits`: what a log shows comes from where the ghost says, and could be opened again.
    * `Inherits.ask`: one request keeps that, whichever calls fail.
    * `inherited_run`: so does every run, and what is read of it is inherited or was appended. -/

namespace ReplicaStore

/-! ## Where entries come from -/

/-- Where the entry of a slot comes from. -/
inductive Origin where
  /-- The slot had it when the log was opened, and was neither cut off nor written since. -/
  | opened
  /-- It is the one appended last at this slot, which was not cut off since. -/
  | appended (e : Entry)
  /-- The slot was cut off, or never was one of the log's. -/
  | absent
deriving DecidableEq, Repr

/-- Where the entry of each slot comes from. -/
abbrev Origins := Nat → Origin

namespace Origins

/-- The origins when a log of a length has been opened. -/
def atOpen (length : Nat) : Origins :=
  fun slot => if slot < length then .opened else .absent

/-- The origins after entries were appended from a slot on. -/
def record (o : Origins) (first : Nat) (entries : List Entry) : Origins := fun slot =>
  if slot < first then o slot
  else
    match entries[slot - first]? with
    | some e => .appended e
    | none => o slot

/-- The origins after the slots from one on were cut off. -/
def cut (o : Origins) (length : Nat) : Origins :=
  fun slot => if slot < length then o slot else .absent

/-- The origins after a request to a log of a length: what was answered has happened. -/
def after (o : Origins) (length : Nat) (answer : Except Error SlotList.Reply)
    (r : SlotList.Request) : Origins :=
  match answer with
  | .error _ => o
  | .ok _ =>
    match r with
    | .truncate index => o.cut (max index.toInt (-1) + 1).toNat
    | r => o.record length r.entries

theorem record_nil (o : Origins) (first : Nat) : o.record first [] = o := by
  funext slot
  simp [record]

theorem cut_of_lt {o : Origins} {length slot : Nat} (h : slot < length) :
    o.cut length slot = o slot :=
  if_pos h

theorem record_of_lt {o : Origins} {first slot : Nat} (h : slot < first) (entries : List Entry) :
    o.record first entries slot = o slot :=
  if_pos h

theorem record_of_getElem? {o : Origins} {first slot : Nat} {entries : List Entry} {e : Entry}
    (hle : first ≤ slot) (he : entries[slot - first]? = some e) :
    o.record first entries slot = .appended e := by
  unfold record
  rw [if_neg (Nat.not_lt.2 hle), he]

variable {o : Origins} {r : SlotList.Request}

/-- Every request but a cut notes what it appends. -/
theorem after_ok (hcut : ∀ index, r ≠ .truncate index) (length : Nat) (reply : SlotList.Reply) :
    o.after length (.ok reply) r = o.record length r.entries := by
  cases r with
  | truncate index => exact absurd rfl (hcut index)
  | _ => rfl

/-- A request that appends nothing and cuts nothing leaves the origins as they are. -/
theorem after_of_entries_eq_nil (hcut : ∀ index, r ≠ .truncate index) (hnil : r.entries = [])
    (length : Nat) (answer : Except Error SlotList.Reply) : o.after length answer r = o := by
  cases answer with
  | error e => rfl
  | ok reply => rw [after_ok hcut, hnil, record_nil]

end Origins

namespace OperationLog

open SlotKey

variable {f : Fault} {c c' : Contents} {log log' log₀ : OperationLog} {o : Origins} {n : Nat}
  {term : Int64}

/-! ## Contents that can be opened -/

theorem TellsLength.le_maxLength (h : TellsLength c n) : n ≤ maxLength := by
  obtain ⟨-, rfl⟩ | ⟨record, -, -, -, hle⟩ := h
  · exact Nat.zero_le _
  · exact hle

/-- A length record that was written tells the length. -/
theorem tellsLength_of_written (h : c.get? lengthKey = some (ofSlot n)) (hn : n ≤ maxLength) :
    TellsLength c n :=
  .inr ⟨ofSlot n, h, readLength_eq_ok_iff.1 (readLength_ofSlot hn)⟩

/-- The length and the last term depend on two records only. -/
theorem Recovers.congr (h : Recovers c n term) (hlength : c'.get? lengthKey = c.get? lengthKey)
    (hlast : ∀ slot, n = slot + 1 → c'.get? (ofSlot slot) = c.get? (ofSlot slot)) :
    Recovers c' n term := by
  refine ⟨?_, ?_⟩
  · unfold TellsLength
    rw [hlength]
    exact h.length
  · obtain ⟨hzero, hterm⟩ | ⟨slot, record, e, hslot, hget, hdecode, hterm⟩ := h.lastTerm
    · exact .inl ⟨hzero, hterm⟩
    · exact .inr ⟨slot, record, e, hslot, (hlast slot hslot).trans hget, hdecode, hterm⟩

theorem exists_record_of_readRecord {slot : Nat} {e : Entry}
    (h : readRecord .none c slot = .ok (some e)) :
    ∃ record, c.get? (ofSlot slot) = some record ∧ Record.decode record = .ok e := by
  cases hget : c.get? (ofSlot slot) with
  | none =>
    rw [readRecord_of_none hget] at h
    cases h
  | some record =>
    obtain ⟨e', he, hdecode⟩ := exists_decode_of_readRecord hget h
    obtain rfl := Option.some.inj he
    exact ⟨record, rfl, hdecode⟩

theorem readRecord_of_decode {slot : Nat} {record : Bytes} {e : Entry}
    (hget : c.get? (ofSlot slot) = some record) (hdecode : Record.decode record = .ok e) :
    readRecord .none c slot = .ok (some e) := by
  unfold readRecord
  rw [Fault.get_none, hget, mapError_ok, ok_bind]
  simp only [hdecode, mapError_ok, ok_bind]
  rfl

/-- What is read of a log is the record of a slot below its length. -/
theorem exists_record_of_readSlot {index : Int} {e : Entry}
    (h : log.readSlot f index = .ok (some e)) :
    0 ≤ index ∧ index < log.length ∧ ∃ record,
      log.contents.get? (ofSlot index.toNat) = some record ∧ Record.decode record = .ok e := by
  have hread := readSlot_of_ok h
  unfold readSlot at hread
  by_cases hnegative : index < 0
  · rw [if_pos hnegative] at hread
    cases hread
  rw [if_neg hnegative] at hread
  by_cases hend : log.length ≤ index
  · rw [if_pos hend] at hread
    cases hread
  rw [if_neg hend] at hread
  exact ⟨Int.not_lt.1 hnegative, Int.not_le.1 hend, exists_record_of_readRecord hread⟩

theorem readSlot_of_decode {index : Int} {record : Bytes} {e : Entry} (hpos : 0 ≤ index)
    (hlt : index < log.length) (hget : log.contents.get? (ofSlot index.toNat) = some record)
    (hdecode : Record.decode record = .ok e) : log.readSlot .none index = .ok (some e) := by
  unfold readSlot
  rw [if_neg (Int.not_lt.2 hpos), if_neg (Int.not_le.2 hlt)]
  exact readRecord_of_decode hget hdecode

/-! ## What writes leave under slot keys -/

/-- Setting the length record leaves the records of slots. -/
theorem get?_ofSlot_resize (c : Contents) (batch : Batch) (length slot : Nat) :
    (c.applyBatch (batch ++ [lengthWrite length])).get? (ofSlot slot) =
      (c.applyBatch batch).get? (ofSlot slot) := by
  rw [Contents.applyBatch_append, get?_lengthWrite, if_neg (lengthKey_ne_ofSlot slot).symm]

/-- Appending gives every slot between the old length and the new one the entry of its place in the
    batch, and leaves the slots below. -/
theorem get?_ofSlot_grown {entries : List Entry} {slot : Nat}
    (hlength : n + entries.length ≤ maxLength) (hslot : slot < n + entries.length) :
    (c.applyBatch (slotWrites n (entries.map Record.bytesOf) ++
      [lengthWrite (n + entries.length)])).get? (ofSlot slot) =
      if slot < n then c.get? (ofSlot slot) else (entries[slot - n]?).map Record.bytesOf := by
  have hbound := lt_slotBound_of_le hlength
  have hroom : n + (entries.map Record.bytesOf).length ≤ slotBound := by
    rw [List.length_map]
    exact Nat.le_of_lt hbound
  rw [get?_ofSlot_resize, get?_slotWrites hroom c (by omega), List.getElem?_map]
  -- A slot below the old length is not written; one from there on has its place in the batch.
  by_cases hold : slot < n
  · rw [if_pos hold, if_pos hold]
  · obtain ⟨e, he⟩ : ∃ e, entries[slot - n]? = some e := ⟨_, List.getElem?_eq_getElem (by omega)⟩
    rw [if_neg hold, if_neg hold, he]
    rfl

/-- Cutting leaves the slots below the new length. -/
theorem get?_ofSlot_shrunk (c : Contents) {length slot : Nat}
    (hbound : length + (n - length) ≤ slotBound) (hslot : slot < length) :
    (c.applyBatch (slotDeletes length (n - length) ++ [lengthWrite length])).get? (ofSlot slot) =
      c.get? (ofSlot slot) := by
  rw [get?_ofSlot_resize, slotDeletes_eq, slotsDeleted, Contents.get?_applyBatch_delete, if_neg]
  -- The slots that are removed start at the new length, and the keys of different slots differ.
  intro hmem
  obtain ⟨s, hs, hkey⟩ := List.mem_map.1 hmem
  have hrange := List.mem_range'_1.1 hs
  have hsame := ofSlot_inj (by omega) (by omega) hkey
  omega

/-- A collection finds no slot from its bound on, whatever else the engine holds. -/
theorem ofSlot_not_mem_keysBelow {slot bound : Nat} (hle : bound ≤ slot)
    (hslot : slot < slotBound) :
    ofSlot slot ∉ keysBelow c bound := by
  intro hmem
  obtain ⟨⟨key, v⟩, hpair, hkey⟩ := List.mem_map.1 hmem
  obtain ⟨-, -, hbelow⟩ := Cursor.mem_takeWhile_seek_iff.1 hpair
  simp only at hkey
  rw [hkey] at hbelow
  have hlt := (ofSlot_lt_ofSlot_iff hslot (Nat.lt_of_le_of_lt hle hslot)).1 hbelow
  omega

/-! ## The invariant -/

/-- Whether a record at a slot comes from where an origin says. -/
def Origin.Explains (log₀ : OperationLog) (slot : Nat) (record : Bytes) : Origin → Prop
  | .opened => slot < log₀.length ∧ log₀.contents.get? (ofSlot slot) = some record
  | .appended e => e.Fits ∧ record = Record.bytesOf e
  | .absent => False

/-- Whether a log could be opened again as it is, and every record below its length comes from where
    the origins say. Of records past the length nothing is asked. -/
structure Inherits (log₀ : OperationLog) (o : Origins) (log : OperationLog) : Prop where
  recovers : Recovers log.contents log.length log.lastTerm
  records : ∀ slot record, slot < log.length → log.contents.get? (ofSlot slot) = some record →
    Origin.Explains log₀ slot record (o slot)

theorem Inherits.openOn_eq (h : Inherits log₀ o log) : openOn .none log.contents = .ok log :=
  openOn_eq_ok_iff.2 ⟨log.length, log.lastTerm, h.recovers, rfl⟩

theorem Inherits.length_lt (h : Inherits log₀ o log) : log.length < slotBound :=
  lt_slotBound_of_le h.recovers.length.le_maxLength

/-- A log that was opened has inherited what it holds. -/
theorem inherits_of_openOn (h : openOn .none c = .ok log) :
    log.contents = c ∧ Inherits log (.atOpen log.length) log := by
  obtain ⟨n, term, hrecovers, rfl⟩ := openOn_eq_ok_iff.1 h
  refine ⟨rfl, hrecovers, ?_⟩
  intro slot record hslot hget
  show Origin.Explains _ slot record (if slot < n then .opened else .absent)
  rw [if_pos hslot]
  exact ⟨hslot, hget⟩

/-! ## Requests -/

/-- Appending writes every slot that it exposes, so what was left there is not shown. -/
theorem Inherits.appendBatch {entries : List Entry} (h : Inherits log₀ o log)
    (happend : log.appendBatch f entries = .ok log') :
    Inherits log₀ (o.record log.length entries) log' := by
  obtain ⟨rfl, rfl⟩ | ⟨last, records, hlast, hencode, hlength, rfl⟩ := appendBatch_cases happend
  · rw [Origins.record_nil]
    exact h
  have hfits := Record.fits_of_mapM_encode hencode
  have hrecords : records = entries.map Record.bytesOf := by
    rw [Record.mapM_encode_eq_ok hfits] at hencode
    exact (Except.ok.inj hencode).symm
  subst hrecords
  have hpos : 0 < entries.length := List.length_pos_of_mem (List.mem_of_getLast? hlast)
  have hend : log.length + entries.length = log.length + entries.length - 1 + 1 := by omega
  refine ⟨⟨tellsLength_of_written (get?_lengthKey_resize _ _ _) hlength, .inr ?_⟩, ?_⟩
  · -- The last slot is the last one written.
    refine ⟨log.length + entries.length - 1, Record.bytesOf last, last, hend, ?_,
      Record.decode_bytesOf (hfits last (List.mem_of_getLast? hlast)), rfl⟩
    have hindex : log.length + entries.length - 1 - log.length = entries.length - 1 := by omega
    rw [get?_ofSlot_grown hlength (by omega), if_neg (by omega), hindex,
      ← List.getLast?_eq_getElem?, hlast]
    rfl
  · intro slot record hslot hrecord
    rw [get?_ofSlot_grown hlength hslot] at hrecord
    by_cases hold : slot < log.length
    · rw [if_pos hold] at hrecord
      rw [Origins.record_of_lt hold]
      exact h.records slot record hold hrecord
    · rw [if_neg hold] at hrecord
      obtain ⟨e, he, rfl⟩ := Option.map_eq_some_iff.1 hrecord
      rw [Origins.record_of_getElem? (Nat.not_lt.1 hold) he]
      exact ⟨hfits e (List.mem_of_getElem? he), rfl⟩

/-- Cutting shows fewer slots, and leaves those as they are. -/
theorem Inherits.truncate {index : Int} (h : Inherits log₀ o log)
    (htruncate : log.truncate f index = .ok log') :
    Inherits log₀ (o.cut (max index (-1) + 1).toNat) log' := by
  obtain ⟨hle, ⟨hsame, rfl⟩ | ⟨length, term, hlength, hlt, hterm, rfl⟩⟩ := truncate_cases htruncate
  · rw [hsame]
    refine ⟨h.recovers, ?_⟩
    intro slot record hslot hget
    rw [Origins.cut_of_lt hslot]
    exact h.records slot record hslot hget
  rw [hlength] at hle ⊢
  have hbound := h.length_lt
  -- Below the new length nothing is touched.
  have hget : ∀ slot, slot < length →
      (log.contents.applyBatch (slotDeletes length (log.length - length) ++
        [lengthWrite length])).get? (ofSlot slot) = log.contents.get? (ofSlot slot) :=
    fun slot hslot => get?_ofSlot_shrunk log.contents (by omega) hslot
  refine ⟨⟨tellsLength_of_written (get?_lengthKey_resize _ _ _) hle, ?_⟩, ?_⟩
  · -- The term was read from the record of the slot that is the last one now.
    have hterm := termAt_of_ok hterm
    unfold termAt at hterm
    by_cases hzero : length = 0
    · rw [if_pos hzero] at hterm
      exact .inl ⟨hzero, (Except.ok.inj hterm).symm⟩
    rw [if_neg hzero] at hterm
    obtain ⟨e?, hread, hrest⟩ := exists_of_bind_eq_ok hterm
    cases e? with
    | none => cases hrest
    | some e =>
      obtain ⟨record, hrecord, hdecode⟩ := exists_record_of_readRecord hread
      have hend : length = length - 1 + 1 := by omega
      refine .inr ⟨length - 1, record, e, hend, ?_, hdecode, (Except.ok.inj hrest).symm⟩
      rw [hget (length - 1) (by omega)]
      exact hrecord
  · intro slot record hslot hrecord
    have hslot : slot < length := hslot
    rw [hget slot hslot] at hrecord
    rw [Origins.cut_of_lt hslot]
    exact h.records slot record (Nat.lt_trans hslot hlt) hrecord

/-- Removing records, but neither the length record nor the last slot's, keeps what is there. -/
theorem Inherits.removed (h : Inherits log₀ o log) (keys : List Bytes)
    (hlength : lengthKey ∉ keys) (hlast : ∀ slot, log.length = slot + 1 → ofSlot slot ∉ keys) :
    Inherits log₀ o { log with contents := log.contents.applyBatch (keys.map .delete) } := by
  -- Recovery looks at the length record and at the last slot only.
  refine ⟨h.recovers.congr ?_ ?_, ?_⟩
  · rw [Contents.get?_applyBatch_delete, if_neg hlength]
  · intro slot hslot
    rw [Contents.get?_applyBatch_delete, if_neg (hlast slot hslot)]
  · intro slot record hslot hget
    rw [Contents.get?_applyBatch_delete] at hget
    split at hget
    · cases hget
    · exact h.records slot record hslot hget

theorem Inherits.removeSlot {index : Int} {found : Bool} (h : Inherits log₀ o log)
    (hindex : index < slotBound) (hremove : log.removeSlot f index = .ok (found, log')) :
    Inherits log₀ o log' := by
  obtain ⟨hnegative, hne, ⟨-, -, rfl⟩ | ⟨record, -, -, rfl⟩⟩ := removeSlot_cases hremove
  · exact h
  have hbound := h.length_lt
  refine h.removed [ofSlot index.toNat] ?_ ?_
  · rw [List.mem_singleton]
    exact lengthKey_ne_ofSlot _
  · intro slot hslot hmem
    have hsame := ofSlot_inj (by omega) (by omega) (List.mem_singleton.1 hmem)
    unfold lastIndex at hne
    omega

theorem Inherits.removeBefore (h : Inherits log₀ o log) (f : Fault) (index : Int) :
    Inherits log₀ o (log.removeBefore f index).2 := by
  obtain hsame | hremoved := removeBefore_cases f log index
  · rw [hsame]
    exact h
  rw [hremoved]
  have hbound := h.length_lt
  refine h.removed _ (lengthKey_not_mem_keysBelow _ _) ?_
  intro slot hslot
  -- The bound of a collection is never past the last slot.
  have hle : (log.collectBound index).toNat ≤ slot := by
    unfold collectBound lastIndex
    omega
  exact ofSlot_not_mem_keysBelow hle (by omega)

/-- One request, whichever calls fail: what the log shows comes from where the origins say, and the
    log could be opened again. -/
theorem Inherits.ask (h : Inherits log₀ o log) (f : Fault) (r : SlotList.Request) :
    Inherits log₀ (o.after log.length (log.ask f r).1 r) (log.ask f r).2 := by
  -- Both ways of appending come down to a batch.
  have happend : ∀ r : SlotList.Request, (∀ index, r ≠ .truncate index) →
      log.ask f r = log.changed (log.appendBatch f r.entries) →
      Inherits log₀ (o.after log.length (log.ask f r).1 r) (log.ask f r).2 := by
    intro r hcut hask
    rw [hask]
    cases hresult : log.appendBatch f r.entries with
    | error e => exact h
    | ok log' =>
      show Inherits log₀ (o.after log.length (.ok .done) r) log'
      rw [Origins.after_ok hcut]
      exact h.appendBatch hresult
  cases r with
  | append e => exact happend (.append e) (fun _ heq => by cases heq) rfl
  | appendBatch entries => exact happend (.appendBatch entries) (fun _ heq => by cases heq) rfl
  | readSlot index =>
    rw [Origins.after_of_entries_eq_nil (r := .readSlot index) (fun _ heq => by cases heq) rfl]
    exact h
  | truncate index =>
    simp only [OperationLog.ask]
    cases hresult : log.truncate f index.toInt with
    | error e => exact h
    | ok log' => exact h.truncate hresult
  | removeSlot index =>
    rw [Origins.after_of_entries_eq_nil (r := .removeSlot index) (fun _ heq => by cases heq) rfl]
    simp only [OperationLog.ask]
    cases hresult : log.removeSlot f index.toInt with
    | error e => exact h
    | ok removed => exact h.removeSlot (toInt_lt_slotBound index) hresult
  | removeBefore index =>
    rw [Origins.after_of_entries_eq_nil (r := .removeBefore index) (fun _ heq => by cases heq) rfl]
    exact h.removeBefore f index.toInt

/-! ## Reading -/

/-- What is read of a log was appended to it, or it had it when it was opened. -/
theorem Inherits.readSlot (h : Inherits log₀ o log) {index : Int} {e : Entry}
    (hread : log.readSlot f index = .ok (some e)) :
    o index.toNat = .appended e ∨
      o index.toNat = .opened ∧ index < log₀.length ∧
        log₀.readSlot .none index = .ok (some e) := by
  obtain ⟨hpos, hlt, record, hget, hdecode⟩ := exists_record_of_readSlot hread
  have hexplained := h.records index.toNat record (by omega) hget
  -- By the origin of the slot; a slot without one has no record to be read.
  cases horigin : o index.toNat with
  | absent =>
    rw [horigin] at hexplained
    exact absurd hexplained id
  | appended e' =>
    rw [horigin] at hexplained
    obtain ⟨hfits, rfl⟩ := hexplained
    rw [Record.decode_bytesOf hfits] at hdecode
    obtain rfl := Except.ok.inj hdecode
    exact .inl rfl
  | opened =>
    rw [horigin] at hexplained
    obtain ⟨hbelow, hheld⟩ := hexplained
    have hlt₀ : index < log₀.length := by omega
    exact .inr ⟨rfl, hlt₀, readSlot_of_decode hpos hlt₀ hheld hdecode⟩

/-- The last slot can be read, and its term is the last term. -/
theorem Inherits.readLast (h : Inherits log₀ o log) (hpos : 0 < log.length) :
    ∃ e, log.readSlot .none log.lastIndex = .ok (some e) ∧ e.term = log.lastTerm := by
  obtain ⟨hzero, -⟩ | ⟨slot, record, e, hslot, hget, hdecode, hterm⟩ := h.recovers.lastTerm
  · omega
  have hindex : log.lastIndex = (slot : Int) := by
    unfold lastIndex
    omega
  refine ⟨e, ?_, hterm.symm⟩
  rw [hindex]
  exact readSlot_of_decode (by omega) (by omega) hget hdecode

end OperationLog

/-! ## Runs -/

namespace LogHandle

open Host OperationLog SlotList

namespace Session

def follow (s : Session) (o : Origins) : Event → Origins
  | .request f r =>
    match s.handle with
    | none => o
    | some handle => o.after handle.length (handle.ask f s.host r).1 r
  | _ => o

def origins (parent : String) (s : Session) (o : Origins) : List Event → Origins
  | [] => o
  | event :: events => origins parent (s.advance parent event).2 (s.follow o event) events

variable {parent : String} {loc : Location} {s : Session} {log log₀ : OperationLog} {o : Origins}

/-- A step keeps the log that the step leaves, and the origins with it. -/
theorem Keeps.inherits_advance (hk : Keeps parent loc s log) (hi : Inherits log₀ o log)
    (event : Event) :
    Keeps parent loc (s.advance parent event).2 (s.after log event) ∧
      Inherits log₀ (s.follow o event) (s.after log event) := by
  refine ⟨hk.step hi.openOn_eq event, ?_⟩
  cases event with
  | openLog f => exact hi
  | close => exact hi
  | request f r =>
    -- While the log is closed, a request is neither carried out nor followed.
    obtain ⟨hclosed, -⟩ | ⟨handle, h', handle', hopen, hlog, hask, -, -⟩ := hk.request f r
    · simp only [after, follow, hclosed]
      exact hi
    · have hlength : handle.length = log.length := by
        rw [← hlog]
        rfl
      simp only [after, follow, hopen, hask, hlength]
      exact hi.ask f r

/-- Whatever is done to a log, it is kept, and the origins with it. -/
theorem Keeps.inherits_run (hk : Keeps parent loc s log) (hi : Inherits log₀ o log)
    (events : List Event) :
    ∃ log', Keeps parent loc (s.run parent events) log' ∧
      Inherits log₀ (s.origins parent o events) log' := by
  -- By induction on the run; that the log is kept together with its origins is the invariant.
  induction events generalizing s log o with
  | nil => exact ⟨log, hk, hi⟩
  | cons event events ih =>
    obtain ⟨hk', hi'⟩ := hk.inherits_advance hi event
    exact ih hk' hi'

/-- A log that was opened on any contents is kept, with everything it shows from there. -/
theorem keeps_of_perform_openBelow {h h' : Host} {handle : LogHandle}
    (hopen : (openBelow .none parent).perform h = (.ok handle, h')) :
    ∃ loc, Keeps parent loc ⟨h', some handle⟩ (handle.log h') ∧
      Inherits (handle.log h') (.atOpen handle.length) (handle.log h') := by
  obtain ⟨loc, c, log, hdirectory, hattached, hlog, hlength, hterm⟩ :=
    attached_of_perform_openBelow hopen
  obtain ⟨rfl, hinherits⟩ := inherits_of_openOn hlog
  have hoffers := hattached.offers hlength hterm
  have hsame := hoffers.log_eq
  rw [hsame, hlength]
  exact ⟨loc, keeps_open hdirectory hoffers, hinherits⟩

/-- On any contents on which a log can be opened, and after any steps whichever calls fail: an entry
    that is read was appended last at its slot, or it is the one that the slot had when the log was
    opened, and the slot was below the length then and was neither cut off nor written since. And
    while there are slots, the last one can be read, and its term is the last term. -/
theorem inherited_run {parent : String} {h₀ h : Host} {opened : LogHandle}
    (hopen : (openBelow .none parent).perform h₀ = (.ok opened, h)) (events : List Event) :
    let s := Session.run parent ⟨h, some opened⟩ events
    let o := Session.origins parent ⟨h, some opened⟩ (.atOpen opened.length) events
    ∀ handle ∈ s.handle,
      (∀ f index e, handle.readSlot f index s.host = .ok (some e) →
        o index.toNat = .appended e ∨
          o index.toNat = .opened ∧ index < opened.length ∧
            opened.readSlot .none index h = .ok (some e)) ∧
      (0 < handle.length →
        ∃ e, handle.readSlot .none ((handle.length : Int) - 1) s.host = .ok (some e) ∧
          e.term = handle.lastTerm) := by
  intro s o handle hhandle
  obtain ⟨loc, hk₀, hi₀⟩ := keeps_of_perform_openBelow hopen
  obtain ⟨log, hk, hi⟩ := hk₀.inherits_run hi₀ events
  have hlog : handle.log s.host = log := hk.shown handle hhandle
  rw [← hlog] at hi
  refine ⟨?_, ?_⟩
  · intro f index e hread
    exact hi.readSlot hread
  · intro hpos
    exact hi.readLast hpos

/-- An engine that holds a log of one slot, a record that was left in the next slot, and a key that
    no log uses: what is read at that slot, once an entry was appended, is that entry. -/
theorem inherited_run_over_leftover :
    let c := (((Contents.empty.insert SlotKey.lengthKey (SlotKey.ofSlot 1)).insert
      (SlotKey.ofSlot 0) (Record.bytesOf (.noOp 3))).insert
      (SlotKey.ofSlot 1) (Record.bytesOf (.put "u" "k" "stale" 9))).insert [0] [1]
    let h := Host.ofDisk (((Disk.empty ["data"]).put ["data", "#binlog"] .directory).put
      ["data", "#binlog", "engine.redb"] (.engine c))
    let opening := (openBelow .none "/data").perform h
    let opened : LogHandle := ⟨"/data/#binlog", 0, 1, 3⟩
    let events : List Event := [.request .none (.appendBatch [.noOp 4])]
    let s := Session.run "/data" ⟨opening.2, some opened⟩ events
    let handle : LogHandle := ⟨"/data/#binlog", 0, 2, 4⟩
    opening.1 = .ok opened ∧ opening.2.contents 0 = c ∧ s.handle = some handle ∧ 0 < handle.length ∧
      handle.readSlot .none 1 s.host = .ok (some (.noOp 4)) ∧
      Session.origins "/data" ⟨opening.2, some opened⟩ (.atOpen 1) events 1 = .appended (.noOp 4) ∧
      ∃ e, handle.readSlot .none 1 s.host = .ok (some e) ∧ e.term = 4 := by
  intro c h opening opened events s handle
  have hopen : opening.1 = .ok opened := by decide +kernel
  have hhandle : s.handle = some handle := by decide +kernel
  have hread : handle.readSlot .none 1 s.host = .ok (some (.noOp 4)) := by decide +kernel
  have hpair : opening = (.ok opened, opening.2) := by
    rw [← hopen]
  obtain ⟨hentries, hlast⟩ := inherited_run hpair events handle hhandle
  refine ⟨hopen, by decide +kernel, hhandle, by decide, hread, ?_, hlast (by decide)⟩
  obtain happended | ⟨-, hbelow, -⟩ := hentries .none 1 _ hread
  · exact happended
  · -- The slot was past the length when the log was opened.
    exact absurd hbelow (by decide)

end Session

end LogHandle

end ReplicaStore
