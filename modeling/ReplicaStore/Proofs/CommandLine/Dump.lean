import ReplicaStore.Proofs.CommandLine.Inspection
import ReplicaStore.Proofs.CommandLine.Lines
import ReplicaStore.Proofs.Log.Inheritance

/-! # Dumps of the log

    A dump prints a line for each slot of its window that still has a record, in ascending order,
    and stops at the first damaged one. The window is cut off at the first slot and at the end of
    the log, and a limit that would lead past the greatest number of 64 bits leads to that number.

    * `OperationLog.Holds`, `OperationLog.Damaged`: what a slot has.
    * `InWindow`, `mem_slotsOf_iff`: the slots that a dump is asked for.
    * `Dumped`, `exists_dumped`: what is printed of a list of slots.
    * `dumpSlots_append`, `slotsOf_append`: two windows side by side.
    * `dump_shows_window`: what a dump prints. -/

namespace ReplicaStore

namespace OperationLog

variable {c : Contents} {log : OperationLog} {slot : Nat} {e e' : Entry}

/-! ## What a slot has -/

/-- Whether contents hold the record of an entry in a slot. -/
def Holds (c : Contents) (slot : Nat) (e : Entry) : Prop :=
  ∃ record, c.get? (SlotKey.ofSlot slot) = some record ∧ Record.decode record = .ok e

/-- Whether contents hold something in a slot that is no record. -/
def Damaged (c : Contents) (slot : Nat) : Prop :=
  ∃ record fault, c.get? (SlotKey.ofSlot slot) = some record ∧ Record.decode record = .error fault

theorem Holds.unique (h : Holds c slot e) (h' : Holds c slot e') : e = e' := by
  obtain ⟨record, hget, hdecode⟩ := h
  obtain ⟨record', hget', hdecode'⟩ := h'
  obtain rfl : record = record' := Option.some.inj (hget.symm.trans hget')
  exact Except.ok.inj (hdecode.symm.trans hdecode')

theorem Holds.not_damaged (h : Holds c slot e) : ¬ Damaged c slot := by
  obtain ⟨record, hget, hdecode⟩ := h
  rintro ⟨record', fault, hget', hfault⟩
  obtain rfl : record = record' := Option.some.inj (hget.symm.trans hget')
  rw [hdecode] at hfault
  cases hfault

/-- What is read of a slot of the log. -/
inductive SlotRead (log : OperationLog) (slot : Nat) : Prop where
  /-- The slot has been collected. -/
  | gone (hread : log.readSlot .none slot = .ok none)
      (hnone : log.contents.get? (SlotKey.ofSlot slot) = none)
  /-- The slot has its record. -/
  | entry (e : Entry) (hread : log.readSlot .none slot = .ok (some e))
      (hholds : Holds log.contents slot e)
  /-- The record of the slot is damaged. -/
  | fault (f : Record.Error) (hread : log.readSlot .none slot = .error (.record f))
      (hdamaged : Damaged log.contents slot)

theorem slotRead (h : slot < log.length) : SlotRead log slot := by
  have hread : log.readSlot .none slot = readRecord .none log.contents slot := by
    unfold readSlot
    rw [if_neg (Int.not_lt.2 (Int.natCast_nonneg slot)), if_neg (by omega), Int.toNat_natCast]
  -- Below the length a read goes to the record, so it is the contents that decide.
  cases hget : log.contents.get? (SlotKey.ofSlot slot) with
  | none => exact .gone (hread.trans (readRecord_of_none hget)) hget
  | some record =>
    cases hdecode : Record.decode record with
    | ok e =>
      exact .entry e (hread.trans (readRecord_of_decode hget hdecode)) ⟨record, hget, hdecode⟩
    | error f =>
      refine .fault f (hread.trans ?_) ⟨record, f, hget, hdecode⟩
      unfold readRecord
      rw [Fault.get_none, hget, mapError_ok, ok_bind]
      simp only [hdecode]
      rfl

theorem length_le_of_openOn (hopen : openOn .none c = .ok log) : log.length ≤ maxLength := by
  obtain ⟨n, term, hrecovers, rfl⟩ := openOn_eq_ok_iff.1 hopen
  exact hrecovers.length.le_maxLength

theorem contents_of_openOn (hopen : openOn .none c = .ok log) : log.contents = c := by
  obtain ⟨n, term, -, rfl⟩ := openOn_eq_ok_iff.1 hopen
  rfl

end OperationLog

namespace CommandLine

open OperationLog

variable {c : Contents} {log : OperationLog} {line : Nat → Entry → String} {slots xs : List Nat}
  {start : Int64} {limit : Option Nat} {length slot : Nat}

/-! ## Lists of slots -/

theorem dumpSlots_of_none (hread : log.readSlot .none slot = .ok none) (slots : List Nat) :
    dumpSlots line log (slot :: slots) = dumpSlots line log slots := by
  rw [dumpSlots, hread]

theorem dumpSlots_of_some {e : Entry} (hread : log.readSlot .none slot = .ok (some e))
    (slots : List Nat) :
    dumpSlots line log (slot :: slots) = { dumpSlots line log slots with
      text := line slot e ++ (dumpSlots line log slots).text } := by
  rw [dumpSlots, hread]

theorem dumpSlots_of_error {e : Error} (hread : log.readSlot .none slot = .error e)
    (slots : List Nat) : dumpSlots line log (slot :: slots) = .failed (.store e) := by
  rw [dumpSlots, hread]

/-- Whether a dump that is asked for some slots reaches one of them: it ends before the first
    damaged one. -/
def Reached (c : Contents) (asked : Nat → Prop) (i : Nat) : Prop :=
  asked i ∧ ∀ d, asked d → Damaged c d → i < d

theorem reached_cons_iff (hsound : ¬ Damaged c slot) (hbelow : ∀ s ∈ slots, slot < s) (i : Nat) :
    Reached c (· ∈ slot :: slots) i ↔ i = slot ∨ Reached c (· ∈ slots) i := by
  -- A sound first slot stops no dump, and as the slots ascend, it is below every damaged one.
  constructor
  · rintro ⟨hmem, hfirst⟩
    rcases List.mem_cons.1 hmem with hi | hi
    · exact .inl hi
    · exact .inr ⟨hi, fun d hd => hfirst d (List.mem_cons_of_mem slot hd)⟩
  · rintro (rfl | ⟨hi, hfirst⟩)
    · refine ⟨List.mem_cons_self, ?_⟩
      intro d hd hdamaged
      rcases List.mem_cons.1 hd with rfl | hd
      · exact absurd hdamaged hsound
      · exact hbelow d hd
    · refine ⟨List.mem_cons_of_mem slot hi, ?_⟩
      intro d hd hdamaged
      rcases List.mem_cons.1 hd with rfl | hd
      · exact absurd hdamaged hsound
      · exact hfirst d hd hdamaged

theorem not_reached_cons (hdamaged : Damaged c slot) (hbelow : ∀ s ∈ slots, slot < s) (i : Nat) :
    ¬ Reached c (· ∈ slot :: slots) i := by
  rintro ⟨hmem, hfirst⟩
  have hlt : i < slot := hfirst slot List.mem_cons_self hdamaged
  -- A dump ends before the damaged slot, and every other slot comes behind it.
  rcases List.mem_cons.1 hmem with rfl | hi
  · exact Nat.lt_irrefl i hlt
  · exact Nat.lt_asymm hlt (hbelow i hi)

/-- What is shown of a list of slots, and how the dump ends. -/
structure Dumped (line : Nat → Entry → String) (log : OperationLog) (slots : List Nat)
    (shown : List (Nat × Entry)) : Prop where
  /-- The slots come in their order, each once. -/
  within : (shown.map Prod.fst).Sublist slots
  /-- What is shown are the entries in the slots that are reached. -/
  mem_iff : ∀ i e, (i, e) ∈ shown ↔
    Reached log.contents (· ∈ slots) i ∧ Holds log.contents i e
  text : (dumpSlots line log slots).text = String.join (shown.map fun s => line s.1 s.2)
  succeeds : (∀ d ∈ slots, ¬ Damaged log.contents d) → (dumpSlots line log slots).failure = none
  /-- A damaged record is reported as one. -/
  fails : ∀ d ∈ slots, Damaged log.contents d →
    ∃ fault, (dumpSlots line log slots).failure = some (.store (.record fault))

variable {shown : List (Nat × Entry)}

theorem Dumped.cons_gone (h : Dumped line log slots shown) (hbelow : ∀ s ∈ slots, slot < s)
    (hread : log.readSlot .none slot = .ok none)
    (hnone : log.contents.get? (SlotKey.ofSlot slot) = none) :
    Dumped line log (slot :: slots) shown := by
  have hempty : ∀ e, ¬ Holds log.contents slot e := by
    rintro e ⟨record, hget, -⟩
    rw [hnone] at hget
    cases hget
  have hsound : ¬ Damaged log.contents slot := by
    rintro ⟨record, fault, hget, -⟩
    rw [hnone] at hget
    cases hget
  have hsame : dumpSlots line log (slot :: slots) = dumpSlots line log slots :=
    dumpSlots_of_none hread slots
  -- A collected slot adds nothing: every clause is the one of the later slots.
  refine ⟨h.within.cons slot, ?_, ?_, ?_, ?_⟩
  · intro i e
    rw [h.mem_iff, reached_cons_iff hsound hbelow, or_and_right]
    constructor
    · exact .inr
    · rintro (⟨rfl, hholds⟩ | hreached)
      · exact absurd hholds (hempty e)
      · exact hreached
  · rw [hsame]
    exact h.text
  · intro hall
    rw [hsame]
    exact h.succeeds fun d hd => hall d (List.mem_cons_of_mem slot hd)
  · intro d hd hdamaged
    rw [hsame]
    rcases List.mem_cons.1 hd with rfl | hd
    · exact absurd hdamaged hsound
    · exact h.fails d hd hdamaged

theorem Dumped.cons_entry {e : Entry} (h : Dumped line log slots shown)
    (hbelow : ∀ s ∈ slots, slot < s) (hread : log.readSlot .none slot = .ok (some e))
    (hholds : Holds log.contents slot e) :
    Dumped line log (slot :: slots) ((slot, e) :: shown) := by
  have hsound := hholds.not_damaged
  have hmore : dumpSlots line log (slot :: slots) = { dumpSlots line log slots with
      text := line slot e ++ (dumpSlots line log slots).text } := dumpSlots_of_some hread slots
  -- The entry stands in front of what is shown of the later slots.
  refine ⟨h.within.cons_cons slot, ?_, ?_, ?_, ?_⟩
  · intro i e'
    rw [List.mem_cons, h.mem_iff, reached_cons_iff hsound hbelow, or_and_right, Prod.mk.injEq]
    constructor
    · rintro (⟨rfl, rfl⟩ | hreached)
      · exact .inl ⟨rfl, hholds⟩
      · exact .inr hreached
    · rintro (⟨rfl, hholds'⟩ | hreached)
      · exact .inl ⟨rfl, hholds'.unique hholds⟩
      · exact .inr hreached
  · rw [hmore, List.map_cons, String.join_cons, ← h.text]
  · intro hall
    rw [hmore]
    exact h.succeeds fun d hd => hall d (List.mem_cons_of_mem slot hd)
  · intro d hd hdamaged
    rw [hmore]
    rcases List.mem_cons.1 hd with rfl | hd
    · exact absurd hdamaged hsound
    · exact h.fails d hd hdamaged

theorem dumped_of_damaged {f : Record.Error} (line : Nat → Entry → String)
    (hbelow : ∀ s ∈ slots, slot < s) (hread : log.readSlot .none slot = .error (.record f))
    (hdamaged : Damaged log.contents slot) : Dumped line log (slot :: slots) [] := by
  have hstop : dumpSlots line log (slot :: slots) = .failed (.store (.record f)) :=
    dumpSlots_of_error hread slots
  -- Nothing is shown, not even of the slots behind, and the damage is reported.
  refine ⟨List.nil_sublist _, ?_, ?_, ?_, ?_⟩
  · intro i e
    constructor
    · intro hmem
      cases hmem
    · rintro ⟨hreached, -⟩
      exact absurd hreached (not_reached_cons hdamaged hbelow i)
  · rw [hstop]
    rfl
  · intro hall
    exact absurd hdamaged (hall slot List.mem_cons_self)
  · intro d hd hdamaged'
    rw [hstop]
    exact ⟨f, rfl⟩

/-- What is printed of ascending slots of the log. -/
theorem exists_dumped (line : Nat → Entry → String) (hlt : ∀ slot ∈ slots, slot < log.length)
    (hsorted : slots.Pairwise (· < ·)) : ∃ shown, Dumped line log slots shown := by
  -- By the slots, as the dump goes through them.
  induction slots with
  | nil =>
    refine ⟨[], List.Sublist.refl [], ?_, rfl, fun _ => rfl, ?_⟩
    · intro i e
      simp [Reached]
    · intro d hd
      cases hd
  | cons slot slots ih =>
    obtain ⟨hbelow, hsorted⟩ := List.pairwise_cons.1 hsorted
    -- What is shown of the later slots stands behind the first one, unless the dump ends there.
    obtain ⟨shown, hshown⟩ := ih (fun s hs => hlt s (List.mem_cons_of_mem slot hs)) hsorted
    cases slotRead (hlt slot List.mem_cons_self) with
    | gone hread hnone => exact ⟨shown, hshown.cons_gone hbelow hread hnone⟩
    | entry e hread hholds => exact ⟨(slot, e) :: shown, hshown.cons_entry hbelow hread hholds⟩
    | fault f hread hdamaged => exact ⟨[], dumped_of_damaged line hbelow hread hdamaged⟩

/-- Two lists of slots, one after the other: nothing in the first one is damaged. -/
theorem dumpSlots_append (line : Nat → Entry → String) (hlt : ∀ slot ∈ xs, slot < log.length)
    (hsound : ∀ slot ∈ xs, ¬ Damaged log.contents slot) (slots : List Nat) :
    (dumpSlots line log (xs ++ slots)).text =
      (dumpSlots line log xs).text ++ (dumpSlots line log slots).text := by
  -- By the slots of the first list: as none of them is damaged, the dump gets to the second one.
  induction xs with
  | nil =>
    show _ = "" ++ _
    rw [List.nil_append, String.empty_append]
  | cons slot xs ih =>
    have hrest := ih (fun s hs => hlt s (List.mem_cons_of_mem slot hs))
      fun s hs => hsound s (List.mem_cons_of_mem slot hs)
    rw [List.cons_append]
    cases slotRead (hlt slot List.mem_cons_self) with
    | gone hread hnone => rw [dumpSlots_of_none hread, dumpSlots_of_none hread, hrest]
    | entry e hread hholds =>
      rw [dumpSlots_of_some hread, dumpSlots_of_some hread, hrest, String.append_assoc]
    | fault f hread hdamaged => exact absurd hdamaged (hsound slot List.mem_cons_self)

/-! ## The window -/

/-- Addition that stops at the greatest and at the least number of 64 bits. -/
def saturatingAdd (a b : Int) : Int :=
  max (-2 ^ 63) (min (a + b) (2 ^ 63 - 1))

/-- The slot before which a dump ends. -/
def windowEnd (start : Int64) (limit : Option Nat) (length : Nat) : Int :=
  match limit with
  | some limit => min length (saturatingAdd start.toInt limit)
  | none => length

/-- Whether a dump is asked for a slot. -/
def InWindow (start : Int64) (limit : Option Nat) (length slot : Nat) : Prop :=
  max start.toInt 0 ≤ slot ∧ slot < windowEnd start limit length

instance (start : Int64) (limit : Option Nat) (length slot : Nat) :
    Decidable (InWindow start limit length slot) :=
  inferInstanceAs (Decidable (_ ∧ _))

/-- The slots that a dump goes through. -/
def slotsOf (start : Int64) (limit : Option Nat) (length : Nat) : List Nat :=
  let (first, stop) := window start.toInt limit length
  List.range' first (stop - first)

theorem mem_slotsOf_iff (hlength : length ≤ maxLength) :
    slot ∈ slotsOf start limit length ↔ InWindow start limit length slot := by
  have hstart := start.le_toInt
  have hmax : (length : Int) ≤ 2 ^ 63 - 1 := by
    have := hlength
    unfold maxLength at this
    omega
  -- The addition can only stop at the greatest number, and no length is above it: the log ends
  -- first.
  unfold slotsOf window InWindow windowEnd saturatingAdd
  cases limit with
  | none =>
    simp only [List.mem_range'_1]
    omega
  | some limit =>
    simp only [List.mem_range'_1]
    omega

theorem slotsOf_sorted (start : Int64) (limit : Option Nat) (length : Nat) :
    (slotsOf start limit length).Pairwise (· < ·) :=
  List.pairwise_lt_range'

theorem length_slotsOf_le {n : Nat} : (slotsOf start (some n) length).length ≤ n := by
  unfold slotsOf window
  simp only [List.length_range']
  omega

/-- A window is one part and the part behind it. -/
theorem slotsOf_append {next : Int64} {m n : Nat} (hpos : 0 ≤ start.toInt)
    (hnext : next.toInt = start.toInt + m) (length : Nat) :
    slotsOf start (some (m + n)) length =
      slotsOf start (some m) length ++ slotsOf next (some n) length := by
  obtain ⟨s, hs⟩ := Int.eq_ofNat_of_zero_le hpos
  have hfirst : ∀ k : Nat,
      slotsOf start (some k) length = List.range' s (min (s + k) length - s) := by
    intro k
    unfold slotsOf window
    rw [hs]
    show List.range' s ((min ((s : Int) + k) length).toNat - s) = _
    congr 1
    omega
  have hsecond : slotsOf next (some n) length =
      List.range' (s + m) (min (s + m + n) length - (s + m)) := by
    unfold slotsOf window
    rw [hnext, hs]
    show List.range' ((s : Int) + m).toNat ((min ((s : Int) + m + n) length).toNat - _) = _
    congr 1
    omega
  rw [hfirst, hfirst, hsecond]
  -- A range is split at the length of its first part, which the end of the log may cut short.
  by_cases hlength : s + m ≤ length
  · have hparts : min (s + (m + n)) length - s = (min (s + m) length - s) +
        (min (s + m + n) length - (s + m)) := by omega
    have hplace : s + m = s + 1 * (min (s + m) length - s) := by omega
    rw [hparts, ← List.range'_append, ← hplace]
  · -- The log ends within the first part.
    have hnone : min (s + m + n) length - (s + m) = 0 := by omega
    have hwhole : min (s + (m + n)) length - s = min (s + m) length - s := by omega
    rw [hnone, hwhole]
    simp

/-! ## Dumps -/

/-- The line of an entry in a dump of either form. -/
def dumpLine (json : Bool) (slot : Nat) (e : Entry) : String :=
  if json then entryJsonLine slot e else entryLine slot e

theorem isLine_dumpLine (json : Bool) (slot : Nat) (e : Entry) : IsLine (dumpLine json slot e) := by
  unfold dumpLine
  cases json with
  | true => exact isLine_entryJsonLine slot e
  | false => exact isLine_entryLine slot e

/-- The lines of a dump as text tell which slots they are of. -/
theorem map_shownSlot?_dumpLine (shown : List (Nat × Entry)) :
    (shown.map fun s => dumpLine false s.1 s.2).map shownSlot? = shown.map fun s => some s.1 := by
  have hline : ∀ s : Nat × Entry, shownSlot? (dumpLine false s.1 s.2) = some s.1 := by
    intro s
    unfold dumpLine
    rw [if_neg Bool.false_ne_true]
    exact shownSlot?_entryLine s.1 s.2
  rw [List.map_map]
  apply List.map_congr_left
  intro s _
  rw [Function.comp_apply]
  exact hline s

/-- A limit that a number of slots can reach. -/
def FitsLimit (limit : Option Nat) : Prop := ∀ n ∈ limit, n < limitBound

instance (limit : Option Nat) : Decidable (FitsLimit limit) :=
  inferInstanceAs (Decidable (∀ n ∈ limit, n < limitBound))

theorem dump_eq (hlimit : FitsLimit limit) (start : Int64) (json : Bool) (log : OperationLog) :
    dump start limit json log =
      dumpSlots (dumpLine json) log (slotsOf start limit log.length) := by
  have hline : dumpLine json = if json then entryJsonLine else entryLine := by
    cases json <;> rfl
  -- A limit of `2 ^ 63` or more would be refused before the first slot.
  have hreach : ¬ limit.any (limitBound ≤ ·) = true := by
    cases limit with
    | none => exact Bool.false_ne_true
    | some n => simpa using hlimit n rfl
  unfold dump
  rw [if_neg hreach, hline]
  rfl

theorem exists_of_shownLog {config : Config} {h : Host} (hshown : shownLog config h = .ok log) :
    ∃ handle h', (LogHandle.openBelow .none config.logPath).perform h = (.ok handle, h') ∧
      handle.log h' = log := by
  unfold shownLog Action.shown at hshown
  rcases hperform : (LogHandle.openBelow .none config.logPath).perform h with ⟨e | handle, h'⟩
  · rw [hperform] at hshown
    cases hshown
  · rw [hperform] at hshown
    exact ⟨handle, h', rfl, Except.ok.inj hshown⟩

/-- A run that dumps prints of the log that the data directory shows. -/
theorem run_dump {args : List String} {environment : Option String} {h : Host} {read : Arguments}
    {config : Config} {json : Bool} (hread : Arguments.read args environment = .ok read)
    (hconfig : configOf read h.disk = .ok config)
    (hcommand : read.command = .logDump start limit json) (hshown : shownLog config h = .ok log) :
    (run args environment h).1 = (dump start limit json log).outcome := by
  obtain ⟨handle, h', hopen, hlog⟩ := exists_of_shownLog hshown
  rw [run_eq hread hconfig, hcommand]
  show (withLog config (fun log h => (dump start limit json (log.log h), h)) h).1.outcome = _
  unfold withLog
  rw [printing_of_ok hopen, hlog]

theorem stdout_outcome (output : Output) : output.outcome.stdout = output.text := by
  unfold Output.outcome
  cases output.failure with
  | none => rfl
  | some failure => rfl

theorem outcome_of_success {output : Output} (h : output.failure = none) :
    output.outcome.exit = 0 ∧ output.outcome.stderr = "" := by
  unfold Output.outcome
  rw [h]
  exact ⟨rfl, rfl⟩

theorem outcome_of_failure {output : Output} {failure : Failure}
    (h : output.failure = some failure) :
    output.outcome.exit = 1 ∧ output.outcome.stderr = failure.report := by
  unfold Output.outcome
  rw [h]
  exact ⟨rfl, rfl⟩

theorem lt_of_mem_slotsOf (hlength : log.length ≤ maxLength)
    (hslot : slot ∈ slotsOf start limit log.length) : slot < log.length := by
  have hwindow := ((mem_slotsOf_iff hlength).1 hslot).2
  unfold windowEnd at hwindow
  cases limit with
  | none => exact Int.ofNat_lt.1 hwindow
  | some n => exact Int.ofNat_lt.1 (Int.lt_of_lt_of_le hwindow (Int.min_le_left _ _))

theorem exists_dumped_window (hlength : log.length ≤ maxLength) (start : Int64)
    (limit : Option Nat) (line : Nat → Entry → String) :
    ∃ shown, Dumped line log (slotsOf start limit log.length) shown :=
  exists_dumped line (fun _ => lt_of_mem_slotsOf hlength) (slotsOf_sorted start limit log.length)

theorem Dumped.ascending (h : Dumped line log (slotsOf start limit length) shown) :
    shown.Pairwise fun s t => s.1 < t.1 :=
  List.pairwise_map.1 ((slotsOf_sorted start limit length).sublist h.within)

theorem Dumped.mem_window_iff (hlength : log.length ≤ maxLength)
    (h : Dumped line log (slotsOf start limit log.length) shown) (i : Nat) (e : Entry) :
    (i, e) ∈ shown ↔
      Reached log.contents (InWindow start limit log.length) i ∧ Holds log.contents i e := by
  have hasked : (fun i => i ∈ slotsOf start limit log.length) =
      InWindow start limit log.length := by
    funext i
    exact propext (mem_slotsOf_iff hlength)
  rw [← hasked]
  exact h.mem_iff i e

/-- Two windows side by side print what one window over both prints. -/
theorem dump_append {next : Int64} {m n : Nat} (hlength : log.length ≤ maxLength) (json : Bool)
    (hpos : 0 ≤ start.toInt) (hnext : next.toInt = start.toInt + m)
    (hbound : start.toInt + m + n < 2 ^ 63)
    (hsound : ∀ d, InWindow start (some (m + n)) log.length d → ¬ Damaged log.contents d) :
    (dump start (some m) json log).text ++ (dump next (some n) json log).text =
      (dump start (some (m + n)) json log).text := by
  -- No limit is refused, and no addition stops at the greatest number.
  have hfits : ∀ k ≤ m + n, FitsLimit (some k) := by
    intro k hk n' hn'
    obtain rfl : k = n' := Option.some.inj hn'
    unfold limitBound
    omega
  rw [dump_eq (hfits m (by omega)), dump_eq (hfits n (by omega)),
    dump_eq (hfits (m + n) (by omega)), slotsOf_append hpos hnext]
  have hfirst : ∀ slot ∈ slotsOf start (some m) log.length,
      slot ∈ slotsOf start (some (m + n)) log.length := by
    intro slot hslot
    rw [slotsOf_append hpos hnext]
    exact List.mem_append_left _ hslot
  -- The first window is a part of the whole one, so nothing in it is damaged.
  refine (dumpSlots_append _ ?_ ?_ _).symm
  · intro slot hslot
    exact lt_of_mem_slotsOf hlength hslot
  · intro slot hslot
    exact hsound slot ((mem_slotsOf_iff hlength).1 (hfirst slot hslot))

/-- A dump prints, of any contents that can be opened, one line for each slot of its window that
    still has its record, in ascending order and up to the first damaged record, which it reports. A
    line of a dump as text shows its slot. Two windows side by side print what one window over both
    prints. -/
theorem dump_shows_window (hopen : openOn .none c = .ok log) (json : Bool) :
    (∀ args environment h read config start limit,
      Arguments.read args environment = .ok read → configOf read h.disk = .ok config →
      read.command = .logDump start limit json → shownLog config h = .ok log →
      (run args environment h).1 = (dump start limit json log).outcome) ∧
    (∀ start limit, FitsLimit limit →
      let asked := InWindow start limit log.length
      let outcome := (dump start limit json log).outcome
      ∃ shown : List (Nat × Entry),
        shown.Pairwise (fun s t => s.1 < t.1) ∧
        (∀ i e, (i, e) ∈ shown ↔ Reached c asked i ∧ Holds c i e) ∧
        outcome.stdout = String.join (shown.map fun s => dumpLine json s.1 s.2) ∧
        (linesOf outcome.stdout).length = shown.length ∧ (∀ n ∈ limit, shown.length ≤ n) ∧
        (json = false → (linesOf outcome.stdout).map shownSlot? = shown.map fun s => some s.1) ∧
        ((∀ d, asked d → ¬ Damaged c d) → outcome.exit = 0 ∧ outcome.stderr = "") ∧
        (∀ d, asked d → Damaged c d → ∃ e : Error, e.kind = .dataLoss ∧ outcome.exit = 1 ∧
          outcome.stderr = (Failure.store e).report)) ∧
    (∀ (start : Int64) (m n : Nat), 0 ≤ start.toInt → start.toInt + m + n < 2 ^ 63 →
      (∀ d, InWindow start (some (m + n)) log.length d → ¬ Damaged c d) →
      let printed := fun (start : Int64) (limit : Nat) =>
        (dump start (some limit) json log).outcome.stdout
      printed start m ++ printed (Int64.ofInt (start.toInt + m)) n = printed start (m + n)) := by
  have hlength := length_le_of_openOn hopen
  obtain rfl := contents_of_openOn hopen
  refine ⟨fun _ _ _ _ _ _ _ => run_dump, ?_, ?_⟩
  · intro start limit hlimit asked outcome
    obtain ⟨shown, hshown⟩ := exists_dumped_window hlength start limit (dumpLine json)
    have htext := hshown.text
    have hsucceeds := hshown.succeeds
    have hfails := hshown.fails
    -- What is known of the list of slots is said of the dump from here on.
    rw [← dump_eq hlimit] at htext hsucceeds hfails
    have hstdout : outcome.stdout = String.join (shown.map fun s => dumpLine json s.1 s.2) :=
      (stdout_outcome _).trans htext
    have hlines : ∀ line ∈ shown.map fun s => dumpLine json s.1 s.2, IsLine line := by
      intro line hline
      obtain ⟨s, -, rfl⟩ := List.mem_map.1 hline
      exact isLine_dumpLine json s.1 s.2
    refine ⟨shown, hshown.ascending, hshown.mem_window_iff hlength, hstdout, ?_, ?_, ?_, ?_, ?_⟩
    · rw [hstdout, length_linesOf_join hlines, List.length_map]
    · intro n hn
      obtain rfl : limit = some n := hn
      calc shown.length
        _ = (shown.map Prod.fst).length := (List.length_map _).symm
        _ ≤ (slotsOf start (some n) log.length).length := hshown.within.length_le
        _ ≤ n := length_slotsOf_le
    · intro htextual
      rw [hstdout, map_shownSlot?_linesOf_join hlines, htextual, map_shownSlot?_dumpLine]
    · intro hsound
      apply outcome_of_success
      apply hsucceeds
      intro d hd
      exact hsound d ((mem_slotsOf_iff hlength).1 hd)
    · intro d hd hdamaged
      obtain ⟨fault, hfailure⟩ := hfails d ((mem_slotsOf_iff hlength).2 hd) hdamaged
      obtain ⟨hexit, hstderr⟩ := outcome_of_failure hfailure
      exact ⟨.record fault, rfl, hexit, hstderr⟩
  · intro start m n hpos hbound hsound printed
    have hnext : (Int64.ofInt (start.toInt + m)).toInt = start.toInt + m :=
      Int64.toInt_ofInt_of_le (by omega) (by omega)
    have hboth := dump_append hlength json hpos hnext hbound hsound
    show printed start m ++ printed _ n = printed start (m + n)
    simp only [printed, stdout_outcome]
    exact hboth

/-! ## A collected slot and a damaged one -/

/-- The contents of a log of six slots: the first one has been collected, and the fourth one is
    damaged. -/
def scarred : Contents :=
  let records : List (Nat × Bytes) := [(1, Record.bytesOf (.put "u" "k" "v" 5)),
    (2, Record.bytesOf (.noOp 5)), (3, [9]), (4, Record.bytesOf (.noOp 5)),
    (5, Record.bytesOf (.delete "u" "k" 7))]
  records.foldl (fun c r => c.insert (SlotKey.ofSlot r.1) r.2)
    (Contents.empty.insert SlotKey.lengthKey (SlotKey.ofSlot 6))

/-- A host with that log. -/
def scarredHost : Host :=
  Host.ofDisk (((Disk.empty ["data"]).put ["data", "#binlog"] .directory).put
    ["data", "#binlog", "engine.redb"] (.engine scarred))

/-- The configuration of a run on that host. -/
def dataConfig : Config := { Config.default with dataDirectory := "/data" }

/-- The arguments of a dump that is asked for three slots below the first one and three behind. -/
def dumpFromBelow : List String :=
  ["--data-dir", "/data", "log", "dump", "--from=-3", "--limit", "6"]

theorem openOn_scarred : openOn .none scarred = .ok ⟨scarred, 6, 7⟩ := by
  have hlength : TellsLength scarred 6 := tellsLength_of_written (by decide) (by decide)
  have hdecode : Record.decode (Record.bytesOf (.delete "u" "k" 7)) = .ok (.delete "u" "k" 7) :=
    Record.decode_bytesOf (by decide)
  have hterm : TellsTerm scarred 6 7 := .inr ⟨5, _, _, rfl, by decide, hdecode, rfl⟩
  exact openOn_eq_ok_iff.2 ⟨6, 7, ⟨hlength, hterm⟩, rfl⟩

theorem not_damaged_scarred {d : Nat} (h : d < 3) : ¬ Damaged scarred d := by
  have hcases : d = 0 ∨ d = 1 ∨ d = 2 := by omega
  -- The first slot has been collected, the other two have records.
  rcases hcases with rfl | rfl | rfl
  · rintro ⟨record, fault, hget, -⟩
    have hnone : scarred.get? (SlotKey.ofSlot 0) = none := by decide
    rw [hnone] at hget
    cases hget
  · have hholds : Holds scarred 1 (.put "u" "k" "v" 5) :=
      ⟨_, by decide, Record.decode_bytesOf (by decide)⟩
    exact hholds.not_damaged
  · have hholds : Holds scarred 2 (.noOp 5) := ⟨_, by decide, Record.decode_bytesOf (by decide)⟩
    exact hholds.not_damaged

theorem shownLog_scarred :
    shownLog dataConfig scarredHost = .ok ⟨scarred, 6, 7⟩ := by
  have hready := LogHandle.ready_of_engine_file scarred
  have hfree : Host.Free ["data", "#binlog", "engine.redb"] scarredHost.engines :=
    fun e hmem => by cases hmem
  obtain ⟨handle, h', hopen, -, hlength, hterm, hattached⟩ :=
    LogHandle.perform_openBelow_of_ready (h := scarredHost) hready hfree rfl openOn_scarred
  have hperform : (LogHandle.openBelow .none dataConfig.logPath).perform scarredHost =
      (.ok handle, h') := hopen
  unfold shownLog Action.shown
  rw [hperform]
  show Except.ok (handle.log h') = _
  unfold LogHandle.log
  rw [hattached.contents_eq, hlength, hterm]

theorem dump_shows_window_of_scarred :
    let log : OperationLog := ⟨scarred, 6, 7⟩
    let printed := fun start limit => (dump start (some limit) false log).outcome.stdout
    openOn .none scarred = .ok log ∧ Damaged scarred 3 ∧
      (run dumpFromBelow none scarredHost).1.exit = 0 ∧
      (linesOf (run dumpFromBelow none scarredHost).1.stdout).length ≤ 6 ∧
      (dump 0 none false log).outcome.exit = 1 ∧ printed 0 2 ++ printed 2 1 = printed 0 3 := by
  intro log printed
  obtain ⟨hrun, hwindow, hpages⟩ := dump_shows_window openOn_scarred false
  have hdamaged : Damaged scarred 3 := ⟨[9], .tooSmall 1, by decide, rfl⟩
  -- Both windows without damage end before that slot.
  have hbelow : windowEnd (-3) (some 6) 6 = 3 := by decide
  have hpage : windowEnd 0 (some 3) 6 = 3 := by decide
  have hread : (Arguments.read dumpFromBelow none).toOption =
      some ⟨defaultConfigPath, some "/data", none, .logDump (-3) (some 6) false⟩ := by
    decide +kernel
  rcases hargs : Arguments.read dumpFromBelow none with stop | read
  · rw [hargs] at hread
    cases hread
  obtain rfl := eq_of_toOption hread hargs
  have hdumped := hrun _ _ scarredHost _ dataConfig (-3) (some 6) hargs rfl rfl shownLog_scarred
  obtain ⟨shown, -, -, -, hlines, hcount, -, hsound, -⟩ := hwindow (-3) (some 6) (by decide)
  obtain ⟨hexit, -⟩ := hsound fun d hd =>
    not_damaged_scarred (Int.ofNat_lt.1 (hd.2.trans_eq hbelow))
  obtain ⟨-, -, -, -, -, -, -, -, hfails⟩ := hwindow 0 none (by decide)
  obtain ⟨e, -, hexit', -⟩ := hfails 3 (by decide) hdamaged
  refine ⟨openOn_scarred, hdamaged, ?_, ?_, hexit', ?_⟩
  · rw [hdumped]
    exact hexit
  · rw [hdumped, hlines]
    exact hcount 6 rfl
  · exact hpages 0 2 1 (by decide) (by decide) fun d hd =>
      not_damaged_scarred (Int.ofNat_lt.1 (hd.2.trans_eq hpage))

end CommandLine

end ReplicaStore
