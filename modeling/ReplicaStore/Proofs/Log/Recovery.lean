import Mathlib.Data.Nat.Digits.Defs
import ReplicaStore.Proofs.Log.Faults
import ReplicaStore.Proofs.Log.OnHost

/-! # Opening a log on any contents

    Nothing is known of what the engine holds when the log is opened. The length record is a text, a
    slot key, and a number in the range, or it is refused; and if the log has slots, the record of
    the last one is there and reads as an entry, or the log is refused. A refusal is always one of
    damage, and nothing is written either way.

    * `SlotKey.slot_eq_ok_iff`: what reads as a slot key.
    * `readLength_eq_ok_iff`: what reads as a length.
    * `Recovers`: the length and the last term that contents tell.
    * `recovered`: a log is opened exactly as the contents tell. -/

namespace ReplicaStore

/-! ## Digits -/

/-- Whether bytes are hexadecimal digits, in either case, and write a number, most significant digit
    first. -/
def Hex.Writes (bs : Bytes) (n : Nat) : Prop :=
  ∃ ds : List Nat, bs.map Hex.value? = ds.map some ∧ n = Nat.ofDigits 16 ds.reverse

theorem Hex.toNat_lt_of_value? {b : UInt8} {n : Nat} (h : Hex.value? b = some n) :
    b.toNat < 0x80 := by
  simp only [value?] at h
  split at h
  · omega
  · split at h
    · omega
    · split at h
      · omega
      · cases h

theorem Hex.Writes.toNat_lt {bs : Bytes} {n : Nat} (h : Hex.Writes bs n) :
    ∀ b ∈ bs, b.toNat < 0x80 := by
  intro b hb
  obtain ⟨ds, hds, -⟩ := h
  have hvalue : Hex.value? b ∈ ds.map some := hds ▸ List.mem_map_of_mem hb
  obtain ⟨d, -, hd⟩ := List.mem_map.1 hvalue
  exact Hex.toNat_lt_of_value? hd.symm

namespace SlotKey

variable {bs : Bytes} {n position high : Nat}

/-- What digits write after a number, they add to the number moved up by as many places. -/
theorem readDigits_eq_ok_iff : readDigits position high bs = .ok n ↔
    ∃ ds : List Nat, bs.map Hex.value? = ds.map some ∧
      n = high * 16 ^ ds.length + Nat.ofDigits 16 ds.reverse := by
  induction bs generalizing position high with
  | nil =>
    constructor
    · intro h
      cases h
      exact ⟨[], rfl, by simp⟩
    · rintro ⟨ds, hds, rfl⟩
      obtain rfl := List.map_eq_nil_iff.1 hds.symm
      simp [readDigits]
  | cons b bs ih =>
    rw [readDigits]
    cases hb : Hex.value? b with
    | none =>
      constructor
      · intro h
        cases h
      · rintro ⟨ds, hds, -⟩
        cases ds with
        | nil => cases hds
        | cons d ds => simp [hb] at hds
    | some d =>
      simp only [ih, List.map_cons, hb]
      -- The digit moves up by as many places as there are digits behind it.
      have hmove : ∀ ds : List Nat, (16 * high + d) * 16 ^ ds.length + Nat.ofDigits 16 ds.reverse =
          high * 16 ^ (d :: ds).length + Nat.ofDigits 16 (d :: ds).reverse := by
        intro ds
        rw [List.reverse_cons, Nat.ofDigits_append, List.length_reverse, Nat.ofDigits_singleton,
          List.length_cons, Nat.pow_succ]
        ring
      constructor
      · rintro ⟨ds, hds, rfl⟩
        exact ⟨d :: ds, congrArg (some d :: ·) hds, hmove ds⟩
      · rintro ⟨ds, hds, rfl⟩
        cases ds with
        | nil => cases hds
        | cons d' ds =>
          rw [List.map_cons, List.cons.injEq, Option.some.injEq] at hds
          obtain ⟨rfl, hds⟩ := hds
          exact ⟨ds, hds, (hmove ds).symm⟩

/-- A text reads as the key of a slot exactly if it is sixteen digits that write the slot. -/
theorem slot_eq_ok_iff {key : String} : slot key = .ok n ↔
    (Utf8.encodeText key).length = width ∧ Hex.Writes (Utf8.encodeText key) n := by
  -- Reading starts with nothing in front, so the digits write the slot alone.
  have hread : readDigits 0 0 (Utf8.encodeText key) = .ok n ↔
      Hex.Writes (Utf8.encodeText key) n := by
    rw [readDigits_eq_ok_iff, Hex.Writes]
    simp only [Nat.zero_mul, Nat.zero_add]
  rw [← hread]
  unfold slot
  simp only
  by_cases hwidth : (Utf8.encodeText key).length = width
  · rw [if_neg (not_not.2 hwidth)]
    cases readDigits 0 0 (Utf8.encodeText key) with
    | ok m => simp [hwidth]
    | error fault => simp
  · rw [if_pos hwidth]
    constructor
    · intro h
      cases h
    · intro h
      exact absurd h.1 hwidth

end SlotKey

namespace OperationLog

open SlotKey

variable {c : Contents} {log : OperationLog} {record : Bytes} {n : Nat} {e : Error}

/-! ## Lengths -/

/-- A record reads as a length exactly if it is sixteen digits that write one. Digits are a text, so
    whether the record is one needs no mention. -/
theorem readLength_eq_ok_iff : readLength record = .ok n ↔
    record.length = width ∧ Hex.Writes record n ∧ n ≤ maxLength := by
  unfold readLength
  constructor
  · intro h
    obtain ⟨text, htext, h⟩ := exists_of_bind_eq_ok h
    obtain ⟨length, hlength, h⟩ := exists_of_bind_eq_ok h
    have hbytes := Utf8.encodeText_of_decodeText (eq_ok_of_mapError htext)
    obtain ⟨hwidth, hwrites⟩ := slot_eq_ok_iff.1 (eq_ok_of_mapError hlength)
    rw [hbytes] at hwidth hwrites
    split at h
    · cases h
    · rename_i hrange
      cases h
      exact ⟨hwidth, hwrites, Nat.not_lt.1 hrange⟩
  · rintro ⟨hwidth, hwrites, hrange⟩
    -- Digits are characters of one byte each, so the record is the bytes of a text.
    obtain ⟨cs, hcs⟩ := exists_encode_eq hwrites.toNat_lt
    have hbytes : Utf8.encodeText (String.ofList cs) = record := by
      rw [Utf8.encodeText, String.toList_ofList, hcs]
    rw [← hbytes, Utf8.decodeText_encodeText, mapError_ok, ok_bind,
      slot_eq_ok_iff.2 (by rw [hbytes]; exact ⟨hwidth, hwrites⟩), mapError_ok, ok_bind,
      if_neg (Nat.not_lt.2 hrange)]
    rfl

/-- The length that contents tell, if it is told at all. -/
def storedLength (c : Contents) : Except Error Nat :=
  match c.get? lengthKey with
  | none | some [] => .ok 0
  | some record => readLength record

/-- Whether contents tell a length: without a length record, or with an empty one, there are no
    slots; any other one is sixteen digits. -/
def TellsLength (c : Contents) (n : Nat) : Prop :=
  (c.get? lengthKey = none ∨ c.get? lengthKey = some []) ∧ n = 0 ∨
    ∃ record, c.get? lengthKey = some record ∧ record.length = width ∧ Hex.Writes record n ∧
      n ≤ maxLength

theorem storedLength_eq_ok_iff : storedLength c = .ok n ↔ TellsLength c n := by
  unfold storedLength TellsLength
  -- By the length record: none, an empty one, or one that is read.
  split
  · rename_i hnone
    simp [hnone, eq_comm]
  · rename_i hempty
    simp [hempty, width, eq_comm]
  · rename_i record hne hrecord
    have hfull : record ≠ [] := hne
    simp [hrecord, hfull, readLength_eq_ok_iff]

/-! ## The last slot -/

/-- Whether contents tell the last term of a log of a length. -/
def TellsTerm (c : Contents) (n : Nat) (term : Int64) : Prop :=
  n = 0 ∧ term = noTerm ∨
    ∃ slot record entry, n = slot + 1 ∧ c.get? (ofSlot slot) = some record ∧
      Record.decode record = .ok entry ∧ term = entry.term

theorem openAtLength_succ (c : Contents) (slot : Nat) :
    openAtLength .none c (slot + 1) = match c.get? (ofSlot slot) with
      | none => .error (.missingTail (slot + 1))
      | some record => match Record.decode record with
        | .error fault => .error (.record fault)
        | .ok entry => .ok ⟨c, slot + 1, entry.term⟩ := by
  unfold openAtLength readRecord
  rw [if_neg (Nat.succ_ne_zero slot), Nat.add_sub_cancel, Fault.get_none, mapError_ok, ok_bind]
  cases c.get? (ofSlot slot) with
  | none => rfl
  | some record =>
    simp only
    cases Record.decode record with
    | error fault => rfl
    | ok entry => rfl

/-- A log of a length is opened exactly as its last slot tells. -/
theorem openAtLength_eq_ok_iff :
    openAtLength .none c n = .ok log ↔ ∃ term, TellsTerm c n term ∧ log = ⟨c, n, term⟩ := by
  -- A log without slots has no last one to look at.
  cases n with
  | zero => simp [openAtLength, TellsTerm, eq_comm]
  | succ slot =>
    rw [openAtLength_succ]
    constructor
    · intro h
      split at h
      · cases h
      rename_i record hrecord
      split at h
      · cases h
      rename_i entry hentry
      cases h
      exact ⟨_, .inr ⟨slot, record, entry, rfl, hrecord, hentry, rfl⟩, rfl⟩
    · rintro ⟨term, ⟨hzero, -⟩ | ⟨slot', record, entry, hslot, hrecord, hentry, rfl⟩, rfl⟩
      · cases hzero
      · cases hslot
        simp only [hrecord, hentry]

/-! ## Opening -/

/-- Whether contents tell the length and the last term of a log. -/
structure Recovers (c : Contents) (n : Nat) (term : Int64) : Prop where
  length : TellsLength c n
  lastTerm : TellsTerm c n term

theorem openOn_eq (c : Contents) :
    openOn .none c = storedLength c >>= openAtLength .none c := by
  unfold openOn storedLength
  rw [Fault.get_none, mapError_ok, ok_bind]
  cases c.get? lengthKey with
  | none => rfl
  | some record =>
    cases record with
    | nil => rfl
    | cons b bs => rfl

/-- A log is opened exactly as the contents tell. -/
theorem openOn_eq_ok_iff : openOn .none c = .ok log ↔
    ∃ n term, Recovers c n term ∧ log = ⟨c, n, term⟩ := by
  rw [openOn_eq]
  constructor
  · intro h
    obtain ⟨n, hlength, hopen⟩ := exists_of_bind_eq_ok h
    obtain ⟨term, hterm, hlog⟩ := openAtLength_eq_ok_iff.1 hopen
    exact ⟨n, term, ⟨storedLength_eq_ok_iff.1 hlength, hterm⟩, hlog⟩
  · rintro ⟨n, term, ⟨hlength, hterm⟩, rfl⟩
    rw [storedLength_eq_ok_iff.2 hlength, ok_bind]
    exact openAtLength_eq_ok_iff.2 ⟨term, hterm, rfl⟩

/-! ## Refusals -/

theorem kind_of_readLength (h : readLength record = .error e) : e.kind = .dataLoss := by
  -- Each of the three steps has its own error, and each of these is damage.
  unfold readLength at h
  cases htext : Utf8.decodeText record with
  | error fault =>
    rw [htext] at h
    cases h
    rfl
  | ok text =>
    rw [htext, mapError_ok, ok_bind] at h
    cases hslot : slot text with
    | error fault =>
      rw [hslot] at h
      cases h
      rfl
    | ok length =>
      rw [hslot, mapError_ok, ok_bind] at h
      split at h
      · cases h
        rfl
      · cases h

theorem kind_of_openAtLength (h : openAtLength .none c n = .error e) : e.kind = .dataLoss := by
  cases n with
  | zero => cases h
  | succ slot =>
    rw [openAtLength_succ] at h
    split at h
    · cases h
      rfl
    · split at h
      · cases h
        rfl
      · cases h

/-- A log that is refused is damaged. -/
theorem kind_of_openOn (h : openOn .none c = .error e) : e.kind = .dataLoss := by
  rw [openOn_eq] at h
  -- Either the length is at fault or, with a good length, the last slot.
  cases hlength : storedLength c with
  | ok n =>
    rw [hlength, ok_bind] at h
    exact kind_of_openAtLength h
  | error e' =>
    rw [hlength] at h
    cases h
    unfold storedLength at hlength
    split at hlength
    · cases hlength
    · cases hlength
    · exact kind_of_readLength hlength

end OperationLog

namespace LogHandle

open Host OperationLog

variable {parent : String} {loc : Location} {h : Host} {c : Contents}

/-- A log is opened exactly as the contents of its engine tell, with the length and the last term
    that they tell; contents that tell none are damaged. Either way the engine holds what it
    held. -/
theorem recovered (hready : Ready (Path.join parent directoryName) loc h.disk c)
    (hfree : Free loc h.engines) :
    ∃ r h', (openBelow .none parent).perform h = (r, h') ∧
      (∀ n term, (∃ handle, r = .ok handle ∧ handle.length = n ∧ handle.lastTerm = term) ↔
        Recovers c n term) ∧
      (∀ e, r = .error e → e.kind = .dataLoss) ∧
      stored h (Path.join parent directoryName) = c ∧
      stored h' (Path.join parent directoryName) = c ∧
      ∀ handle, r = .ok handle → h'.contents handle.engine = c := by
  -- The engine opens either way; what comes of it is what comes of the contents.
  cases hlog : openOn .none c with
  | error e =>
    obtain ⟨h', hopen, hready', -⟩ := perform_openBelow_of_unreadable hready hfree rfl hlog
    refine ⟨_, h', hopen, ?_, ?_, hready.stored_eq, hready'.stored_eq, ?_⟩
    · intro n term
      constructor
      · rintro ⟨handle, hok, -⟩
        cases hok
      · intro htells
        -- Contents that told something would have been opened.
        rw [openOn_eq_ok_iff.2 ⟨n, term, htells, rfl⟩] at hlog
        cases hlog
    · intro e' he'
      cases he'
      exact kind_of_openOn hlog
    · intro handle hok
      cases hok
  | ok log =>
    obtain ⟨handle, h', hopen, hdirectory, hlength, hterm, hattached⟩ :=
      perform_openBelow_of_ready hready hfree rfl hlog
    have hstored : stored h' (Path.join parent directoryName) = c := by
      rw [← hdirectory]
      exact hattached.kept.ready.stored_eq
    refine ⟨_, h', hopen, ?_, ?_, hready.stored_eq, hstored, ?_⟩
    · intro n term
      constructor
      · rintro ⟨handle', hok, rfl, rfl⟩
        cases hok
        obtain ⟨n, term, htells, rfl⟩ := openOn_eq_ok_iff.1 hlog
        rw [hlength, hterm]
        exact htells
      · intro htells
        rw [openOn_eq_ok_iff.2 ⟨n, term, htells, rfl⟩, Except.ok.injEq] at hlog
        subst hlog
        exact ⟨handle, rfl, hlength, hterm⟩
    · intro e he
      cases he
    · intro handle' hok
      cases hok
      exact hattached.contents_eq

theorem ready_of_engine_file (c : Contents) :
    Ready (Path.join "/data" directoryName) ["data", "#binlog", "engine.redb"]
      (((Disk.empty ["data"]).put ["data", "#binlog"] .directory).put
        ["data", "#binlog", "engine.redb"] (.engine c)) c :=
  ⟨rfl, rfl, .inl rfl⟩

/-- A length of ten, written in capitals, over a log of which only the last slot is left, besides a
    key that no log uses. -/
theorem recovered_of_capitals :
    let tail : Entry := .put "u" "k" "v" 5
    let c := ((Contents.empty.insert SlotKey.lengthKey (Utf8.encodeText "000000000000000A")).insert
      (SlotKey.ofSlot 9) (Record.bytesOf tail)).insert [0] [1]
    let loc := ["data", "#binlog", "engine.redb"]
    let h := Host.ofDisk (((Disk.empty ["data"]).put ["data", "#binlog"] .directory).put loc
      (.engine c))
    let directory := Path.join "/data" directoryName
    Ready directory loc h.disk c ∧ Free loc h.engines ∧ Recovers c 10 5 ∧
      ∃ handle h', (openBelow .none "/data").perform h = (.ok handle, h') ∧ handle.length = 10 ∧
        handle.lastTerm = 5 ∧ stored h' directory = c := by
  intro tail c loc h directory
  have hready : Ready directory loc h.disk c := ready_of_engine_file c
  have hfree : Free loc h.engines := fun e hmem => by cases hmem
  have hdigits : Hex.Writes (Utf8.encodeText "000000000000000A") 10 :=
    ⟨List.replicate 15 0 ++ [10], by decide, by decide⟩
  have hlength : TellsLength c 10 :=
    .inr ⟨Utf8.encodeText "000000000000000A", by decide, by decide, hdigits, by decide⟩
  have hterm : TellsTerm c 10 5 :=
    .inr ⟨9, Record.bytesOf tail, tail, rfl, by decide, Record.decode_bytesOf (by decide), rfl⟩
  obtain ⟨r, h', hopen, htells, -, -, hstored, -⟩ := recovered hready hfree
  obtain ⟨handle, rfl, hten, hfive⟩ := (htells 10 5).2 ⟨hlength, hterm⟩
  exact ⟨hready, hfree, ⟨hlength, hterm⟩, handle, h', hopen, hten, hfive, hstored⟩

end LogHandle

end ReplicaStore
