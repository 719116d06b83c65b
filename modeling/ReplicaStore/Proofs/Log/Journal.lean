import ReplicaStore.Proofs.Log.Faults

/-! # What a log holds of what was appended

    A journal notes, beside a log, which entry was appended last at each slot, and whether anything
    was appended at all. Whatever is asked of the log, and whichever calls fail, the engine holds
    the length and, for some of the slots below it, the entry that the journal has there; it holds
    nothing else.

    * `Consistent`, `ConsistentLog`: what contents, and a log, hold of a journal.
    * `Tracks.ask`: one request keeps a log and its journal together.
    * `Tracks.consistent`: a log that is kept together with its journal is consistent with it. -/

namespace ReplicaStore

/-! ## Journals -/

/-- What was appended to a log. -/
structure Journal where
  /-- The entry that was appended last at a slot. -/
  appended : Nat → Option Entry
  /-- Whether a batch that is not empty was appended. -/
  grown : Bool

namespace Journal

def blank : Journal := ⟨fun _ => none, false⟩

/-- The journal after entries were appended from a slot on. -/
def record (j : Journal) (first : Nat) (entries : List Entry) : Journal where
  appended slot := if slot < first then j.appended slot
    else (entries[slot - first]?).or (j.appended slot)
  grown := j.grown || !entries.isEmpty

/-- The journal after a request to a log of a length: what was answered has happened. -/
def after (j : Journal) (length : Nat) (answer : Except Error SlotList.Reply)
    (r : SlotList.Request) : Journal :=
  match answer with
  | .ok _ => j.record length r.entries
  | .error _ => j

theorem record_nil (j : Journal) (first : Nat) : j.record first [] = j := by
  simp [record]

end Journal

namespace OperationLog

open SlotKey

/-! ## Consistency -/

/-- What contents hold of a journal, for a log of a length. -/
structure Consistent (c : Contents) (length : Nat) (j : Journal) : Prop where
  /-- There are no keys but the length's and those of slots. -/
  keys : OnlyLogKeys c
  /-- The length record is missing only if nothing was ever appended, and else holds the length. -/
  lengthRecord : c.get? lengthKey = some (ofSlot length) ∨
    c.get? lengthKey = none ∧ length = 0 ∧ j.grown = false
  /-- The length is one that its record can hold. -/
  bounded : length ≤ maxLength
  /-- At and past the length there are no records. -/
  past : ∀ slot, length ≤ slot → slot < slotBound → c.get? (ofSlot slot) = none
  /-- Every record is that of the entry that was appended last at its slot. -/
  records : ∀ slot record, slot < slotBound → c.get? (ofSlot slot) = some record →
    ∃ e, j.appended slot = some e ∧ Record.decode record = .ok e
  /-- The last slot has its record. -/
  last : 0 < length → c.get? (ofSlot (length - 1)) ≠ none

/-- What a log holds of a journal; and the last term is that of the last slot's record. -/
structure ConsistentLog (log : OperationLog) (j : Journal) : Prop
    extends Consistent log.contents log.length j where
  /-- The term of the last slot's record. -/
  term : ∀ record e, 0 < log.length → log.contents.get? (ofSlot (log.length - 1)) = some record →
    Record.decode record = .ok e → log.lastTerm = e.term
  /-- Without slots there is no last term. -/
  noTerm : log.length = 0 → log.lastTerm = OperationLog.noTerm

/-! ## The length record -/

variable {f : Fault} {c : Contents} {log log' : OperationLog} {A B : SlotList}
  {r : SlotList.Request} {j : Journal}

theorem get?_lengthKey_resize (c : Contents) (batch : Batch) (length : Nat) :
    (c.applyBatch (batch ++ [lengthWrite length])).get? lengthKey = some (ofSlot length) := by
  rw [Contents.applyBatch_append, get?_lengthWrite, if_pos rfl]

/-- A batch that is not empty leaves a length record. -/
theorem entries_eq_nil_of_appendBatch {entries : List Entry}
    (h : log.appendBatch f entries = .ok log') (hnone : log'.contents.get? lengthKey = none) :
    entries = [] ∧ log' = log := by
  rcases appendBatch_cases h with hnothing | ⟨last, records, -, -, -, rfl⟩
  · exact hnothing
  · rw [get?_lengthKey_resize] at hnone
    cases hnone

/-- A cut that changes anything leaves a length record. -/
theorem eq_of_truncate {index : Int} (h : log.truncate f index = .ok log')
    (hnone : log'.contents.get? lengthKey = none) : log' = log := by
  rcases truncate_cases h with ⟨-, ⟨-, hsame⟩ | ⟨length, term, -, -, -, rfl⟩⟩
  · exact hsame
  · rw [get?_lengthKey_resize] at hnone
    cases hnone

/-- Removing a slot leaves the length record alone. -/
theorem get?_lengthKey_removeSlot {index : Int} {present : Bool}
    (h : log.removeSlot f index = .ok (present, log')) :
    log'.contents.get? lengthKey = log.contents.get? lengthKey := by
  obtain ⟨-, -, ⟨-, -, rfl⟩ | ⟨record, -, -, rfl⟩⟩ := removeSlot_cases h
  · rfl
  · rw [Contents.applyBatch_cons, Contents.applyBatch_nil, Contents.get?_apply]
    exact if_neg (lengthKey_ne_ofSlot _)

/-- The length's key sorts before every slot key, so no collection finds it. -/
theorem lengthKey_not_mem_keysBelow (c : Contents) (slot : Nat) : lengthKey ∉ keysBelow c slot := by
  intro hmem
  obtain ⟨⟨key, v⟩, hpair, hkey⟩ := List.mem_map.1 hmem
  obtain ⟨-, hlow, -⟩ := Cursor.mem_takeWhile_seek_iff.1 hpair
  simp only at hkey
  rw [hkey] at hlow
  exact hlow (lengthKey_lt_ofSlot 0)

theorem get?_lengthKey_removeBefore (f : Fault) (log : OperationLog) (index : Int) :
    (log.removeBefore f index).2.contents.get? lengthKey = log.contents.get? lengthKey := by
  rcases removeBefore_cases f log index with hsame | hremoved
  · rw [hsame]
  · rw [hremoved, Contents.get?_applyBatch_delete, if_neg (lengthKey_not_mem_keysBelow _ _)]

/-- A length record is never removed, and is there once something was appended. -/
theorem lengthRecord_of_ask (h : (log.ask f r).2.contents.get? lengthKey = none) :
    log.contents.get? lengthKey = none ∧
      ∀ reply, (log.ask f r).1 = .ok reply → r.entries = [] := by
  have happend : ∀ entries : List Entry,
      (log.changed (log.appendBatch f entries)).2.contents.get? lengthKey = none →
      log.contents.get? lengthKey = none ∧
        ∀ reply, (log.changed (log.appendBatch f entries)).1 = .ok reply → entries = [] := by
    intro entries hnone
    cases hresult : log.appendBatch f entries with
    | error e =>
      rw [hresult] at hnone
      refine ⟨hnone, ?_⟩
      intro reply hreply
      cases hreply
    | ok log' =>
      rw [hresult] at hnone
      obtain ⟨hnil, rfl⟩ := entries_eq_nil_of_appendBatch hresult hnone
      exact ⟨hnone, fun _ _ => hnil⟩
  -- No request removes the length record, and every batch that is not empty writes it.
  cases r with
  | append e => exact happend [e] h
  | appendBatch entries => exact happend entries h
  | readSlot index => exact ⟨h, fun _ _ => rfl⟩
  | truncate index =>
    refine ⟨?_, fun _ _ => rfl⟩
    simp only [ask] at h
    cases hresult : log.truncate f index.toInt with
    | error e =>
      rw [hresult] at h
      exact h
    | ok log' =>
      rw [hresult] at h
      obtain rfl := eq_of_truncate hresult h
      exact h
  | removeSlot index =>
    refine ⟨?_, fun _ _ => rfl⟩
    simp only [ask] at h
    cases hresult : log.removeSlot f index.toInt with
    | error e =>
      rw [hresult] at h
      exact h
    | ok removed =>
      obtain ⟨present, log'⟩ := removed
      rw [hresult] at h
      rw [← get?_lengthKey_removeSlot hresult]
      exact h
  | removeBefore index =>
    refine ⟨?_, fun _ _ => rfl⟩
    simp only [ask] at h
    rw [← get?_lengthKey_removeBefore f log index.toInt]
    exact h

/-! ## Log and journal -/

/-- Whether a list of slots has nothing but what a journal has. -/
def Covers (j : Journal) (A : SlotList) : Prop :=
  ∀ slot e, A.slot? slot = some e → j.appended slot = some e

/-- Whether contents represent slots of a journal. -/
structure Records (c : Contents) (A : SlotList) (j : Journal) : Prop where
  represents : Represents c A
  covers : Covers j A
  grown : c.get? lengthKey = none → j.grown = false

/-- Whether a log shows slots of a journal. -/
def Tracks (log : OperationLog) (j : Journal) : Prop :=
  ∃ A, log.Shows A ∧ Records log.contents A j

theorem covers_record {first : Nat} {entries : List Entry} (h : Covers j A)
    (hfirst : first = A.length)
    (hB : ∀ slot e, B.slot? slot = some e →
      A.slot? slot = some e ∨ A.length ≤ slot ∧ entries[slot - A.length]? = some e) :
    Covers (j.record first entries) B := by
  subst hfirst
  intro slot e hslot
  unfold Journal.record
  simp only
  rcases hB slot e hslot with hold | ⟨hle, hnew⟩
  · -- A slot that has an entry lies below the length, where nothing was appended.
    have hlt : slot < A.length := by
      by_contra hnot
      rw [SlotList.slot?_of_length_le (Nat.not_lt.1 hnot)] at hold
      cases hold
    rw [if_pos hlt]
    exact h slot e hold
  · rw [if_neg (Nat.not_lt.2 hle), hnew]
    rfl

/-- Whatever is asked of a log, and whichever calls fail, log and journal stay together. -/
theorem Tracks.ask (h : Tracks log j) (f : Fault) (r : SlotList.Request) :
    Tracks (log.ask f r).2 (j.after log.length (log.ask f r).1 r) := by
  obtain ⟨A, hshows, hrecords⟩ := h
  have hgrown : (log.ask f r).2.contents.get? lengthKey = none →
      (j.after log.length (log.ask f r).1 r).grown = false := by
    intro hnone
    obtain ⟨hbefore, hentries⟩ := lengthRecord_of_ask hnone
    have hblank := hrecords.grown hbefore
    unfold Journal.after
    split
    · rename_i reply hreply
      rw [hentries reply hreply, Journal.record_nil]
      exact hblank
    · exact hblank
  have hcovers : Covers (j.record log.length r.entries) (A.ask r).2 :=
    covers_record hrecords.covers hshows.length (fun _ _ => SlotList.slot?_of_ask)
  -- The answer tells what the journal does: an answered request is recorded, one that failed is
  -- not, and a collection records nothing in any case.
  rcases hshows.ask f r with ⟨reply, hreply, -, hafter⟩ | ⟨⟨e, he⟩, hunchanged | ⟨hnil, hafter⟩⟩
  · refine ⟨_, hafter, hafter.represents, ?_, hgrown⟩
    rw [hreply]
    exact hcovers
  · refine ⟨A, ?_, ?_, ?_, hgrown⟩
    · rw [hunchanged]
      exact hshows
    · rw [hunchanged]
      exact hrecords.represents
    · rw [he]
      exact hrecords.covers
  · refine ⟨_, hafter, hafter.represents, ?_, hgrown⟩
    rw [hnil, Journal.record_nil] at hcovers
    rw [he]
    exact hcovers

/-- Contents that represent slots of a journal are consistent with it. -/
theorem Records.consistent (h : Records c A j) : Consistent c A.length j where
  keys := h.represents.keys
  lengthRecord := by
    -- Without a length record there are no slots, and nothing was ever appended.
    rcases h.represents.length with hlength | ⟨hA, hnone⟩
    · exact .inl hlength
    · rw [hA]
      exact .inr ⟨hnone, rfl, h.grown hnone⟩
  bounded := h.represents.bounded
  past slot hle hslot := by
    rw [get?_eq_none_iff (h.represents.slot slot hslot)]
    exact SlotList.slot?_of_length_le hle
  records slot record hslot hget := by
    obtain ⟨e, he, hdecode⟩ := exists_decode_of_readRecord hget (h.represents.slot slot hslot)
    exact ⟨e, h.covers slot e he, hdecode⟩
  last hpos hnone := by
    have hne : A ≠ [] := List.length_pos_iff.1 hpos
    obtain ⟨e, -, -, hread⟩ := h.represents.last hne
    rw [readRecord_of_none hnone] at hread
    cases hread

theorem Tracks.consistent (h : Tracks log j) : ConsistentLog log j := by
  obtain ⟨A, hshows, hrecords⟩ := h
  have hconsistent := hrecords.consistent
  rw [← hshows.length] at hconsistent
  refine ⟨hconsistent, ?_, ?_⟩
  · intro record e hpos hget hdecode
    rw [hshows.length] at hpos hget
    obtain ⟨e', -, hterm, hread⟩ := hrecords.represents.last (List.length_pos_iff.1 hpos)
    -- The entry of the last slot is the one that its record holds.
    obtain ⟨e'', he, hdecode'⟩ := exists_decode_of_readRecord hget hread
    cases he
    rw [hdecode] at hdecode'
    cases hdecode'
    rw [hshows.term, hterm]
  · intro hzero
    rw [hshows.length] at hzero
    rw [hshows.term, List.length_eq_zero_iff.1 hzero]
    rfl

end OperationLog

end ReplicaStore
