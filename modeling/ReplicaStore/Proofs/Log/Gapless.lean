import ReplicaStore.Proofs.Log.FaultySession

/-! # Logs without gaps

    As long as no single slot is removed, a log has entries from a first slot on, and from there to
    its end. Collecting moves the first slot up, but never past the last one; cutting moves the end
    down, but never below the first slot, unless it empties the log.

    * `SlotList.KeptFrom`, `KeptFrom.ask`: the first slot of a list, and what a request does to it.
    * `OperationLog.ShowsFrom`, `ShowsFrom.ask`: the same of a log, whichever calls fail.
    * `showsFrom_after`, `Keeps.run_without_gaps`: one step of a session, and a whole run.
    * `gapless_run`: what is read at every moment of a run, where the first slot moves, and which
      cuts succeed. -/

namespace ReplicaStore

namespace SlotList

/-! ## Lists -/

/-- Whether a list has entries exactly from a first slot on. -/
structure KeptFrom (A : SlotList) (first : Nat) : Prop where
  /-- The first slot is one of the list, unless there are none. -/
  inside : A.length ≠ 0 → first < A.length
  le : first ≤ A.length
  entries : ∀ slot, A.slot? slot ≠ none ↔ first ≤ slot ∧ slot < A.length

variable {A B : SlotList} {first : Nat}

theorem keptFrom_nil : KeptFrom [] 0 := by
  refine ⟨fun hne => absurd rfl hne, Nat.le_refl 0, ?_⟩
  intro slot
  simp [slot?]

theorem KeptFrom.append (h : A.KeptFrom first) (entries : List Entry) :
    (A.append entries).KeptFrom first := by
  have hlength : (A.append entries).length = A.length + entries.length := by
    simp [SlotList.append]
  have hle := h.le
  refine ⟨?_, by omega, ?_⟩
  · intro hne
    by_cases hA : A.length = 0
    · -- The first slot of an empty list is the one that is appended to.
      omega
    · have hlt := h.inside hA
      omega
  · intro slot
    -- A slot below the old length is what it was, and one that is appended has an entry.
    rw [slot?_append, hlength]
    by_cases hslot : slot < A.length
    · rw [if_pos hslot, h.entries slot]
      omega
    · rw [if_neg hslot, ne_eq, List.getElem?_eq_none_iff]
      omega

/-- A cut behind the first slot leaves it. -/
theorem KeptFrom.take (h : A.KeptFrom first) {n : Nat} (hfirst : first < n) (hn : n ≤ A.length) :
    KeptFrom (A.take n) first := by
  have hlength : (A.take n).length = n := by
    rw [List.length_take]
    omega
  refine ⟨fun _ => by omega, by omega, ?_⟩
  intro slot
  rw [slot?_take, hlength]
  by_cases hslot : slot < n
  · rw [if_pos hslot, h.entries slot]
    omega
  · rw [if_neg hslot]
    simp [hslot]

/-- A list is cut to a slot that it has, and that is not the last one, exactly if the slot is not
    before the first one. -/
theorem KeptFrom.truncate_iff (h : A.KeptFrom first) (hbounded : A.length ≤ OperationLog.maxLength)
    {index : Int} (hindex : 0 ≤ index) (hlast : index < (A.length : Int) - 1) :
    (∃ B, A.truncate index = .ok B) ↔ (first : Int) ≤ index := by
  have hn : (max index (-1) + 1).toNat = index.toNat + 1 := by omega
  have hentries := h.entries index.toNat
  unfold truncate
  simp only [hn, Nat.add_sub_cancel]
  -- The slot is in the list and not its last one, so only the question is left whether it has its
  -- entry.
  rw [if_neg (by omega), if_neg (by omega), if_neg (by omega), if_neg (by omega)]
  by_cases hentry : A.slot? index.toNat = none
  · rw [if_pos hentry]
    simp only [reduceCtorEq, exists_false, false_iff]
    intro hle
    exact hentries.2 (by omega) hentry
  · rw [if_neg hentry]
    have hle := hentries.1 hentry
    exact ⟨fun _ => by omega, fun _ => ⟨_, rfl⟩⟩

/-- A cut leaves the first slot, or nothing. -/
theorem KeptFrom.truncate (h : A.KeptFrom first) {index : Int} (hcut : A.truncate index = .ok B) :
    B.KeptFrom first ∨ B = [] := by
  obtain rfl | rfl | ⟨n, hpos, hlt, hentry, rfl⟩ := cases_of_truncate hcut
  · exact .inl h
  · exact .inr rfl
  · -- The last slot that stays has its entry, so it is not before the first one.
    have hle := (h.entries (n - 1)).1 hentry
    exact .inl (h.take (by omega) (by omega))

/-- A collection moves the first slot up to its bound. -/
theorem KeptFrom.removeBefore (h : A.KeptFrom first) (index : Int) :
    (A.removeBefore index).2.KeptFrom (max first (A.boundBelow index)) := by
  have hlength := A.length_removeBefore index
  have hbound := A.boundBelow_le index
  have hle := h.le
  refine ⟨?_, by omega, ?_⟩
  · intro hne
    rw [hlength] at hne ⊢
    have hinside := h.inside hne
    have hlt := A.boundBelow_lt index (List.length_pos_iff.1 (Nat.pos_of_ne_zero hne))
    omega
  · intro slot
    rw [hlength]
    unfold SlotList.removeBefore
    simp only
    -- Below the bound everything is gone, and from there on the list is what it was.
    rw [slot?_replicate_append_drop]
    by_cases hslot : slot < A.boundBelow index
    · rw [if_pos hslot]
      simp only [ne_eq, not_true_eq_false, false_iff]
      omega
    · rw [if_neg hslot, h.entries slot]
      omega

/-- A request that removes no single slot leaves no gap. The first slot is not moved down, unless a
    cut empties the list. -/
theorem KeptFrom.ask (h : A.KeptFrom first) {r : Request}
    (hr : ∀ index, r ≠ .removeSlot index) :
    ∃ first', (A.ask r).2.KeptFrom first' ∧
      (first ≤ first' ∨ (A.ask r).2 = [] ∧ ∃ index, r = .truncate index) := by
  -- Only cuts and collections touch the first slot; the request that could leave a gap is not
  -- asked.
  cases r with
  | append e => exact ⟨first, h.append [e], .inl (Nat.le_refl first)⟩
  | appendBatch entries => exact ⟨first, h.append entries, .inl (Nat.le_refl first)⟩
  | readSlot index => exact ⟨first, h, .inl (Nat.le_refl first)⟩
  | removeSlot index => exact absurd rfl (hr index)
  | removeBefore index =>
    exact ⟨_, h.removeBefore index.toInt, .inl (Nat.le_max_left first _)⟩
  | truncate index =>
    simp only [SlotList.ask]
    cases hcut : A.truncate index.toInt with
    | error e => exact ⟨first, h, .inl (Nat.le_refl first)⟩
    | ok B =>
      rcases h.truncate hcut with hkept | hnone
      · exact ⟨first, hkept, .inl (Nat.le_refl first)⟩
      · exact ⟨0, by rw [hnone]; exact keptFrom_nil, .inr ⟨hnone, index, rfl⟩⟩

end SlotList

namespace OperationLog

open SlotKey

/-! ## Logs -/

/-- Whether the slots that can be read are exactly those from a first one on. -/
structure KeptFrom (log : OperationLog) (first : Nat) : Prop where
  /-- The first slot is one of the log, unless there are none. -/
  inside : log.length ≠ 0 → first < log.length
  le : first ≤ log.length
  reads : ∀ index : Int, (∃ e, log.readSlot .none index = .ok (some e)) ↔
    (first : Int) ≤ index ∧ index < log.length

/-- Whether a log shows a list that has entries exactly from a first slot on. -/
def ShowsFrom (log : OperationLog) (first : Nat) : Prop :=
  ∃ A, log.Shows A ∧ A.KeptFrom first

variable {log : OperationLog} {A : SlotList} {first other : Nat}

/-- A log has one first slot only. -/
theorem KeptFrom.unique (h : log.KeptFrom first) (h' : log.KeptFrom other) : first = other := by
  by_cases hzero : log.length = 0
  · have hle := h.le
    have hle' := h'.le
    omega
  · -- Each of the two can be read, so neither is before the other.
    have hinside := h.inside hzero
    have hinside' := h'.inside hzero
    have hread := (h.reads first).2 ⟨by omega, by omega⟩
    have hread' := (h'.reads other).2 ⟨by omega, by omega⟩
    have hother := (h'.reads first).1 hread
    have hfirst := (h.reads other).1 hread'
    omega

theorem ShowsFrom.openOn_eq (h : log.ShowsFrom first) : openOn .none log.contents = .ok log := by
  obtain ⟨A, hshows, -⟩ := h
  exact hshows.openOn_eq

/-- What a log shows is what can be read from it. -/
theorem ShowsFrom.keptFrom (h : log.ShowsFrom first) : log.KeptFrom first := by
  obtain ⟨A, hshows, hkept⟩ := h
  have hlength := hshows.length
  refine ⟨?_, ?_, ?_⟩
  · rw [hlength]
    exact hkept.inside
  · rw [hlength]
    exact hkept.le
  · intro index
    -- A slot inside is read as the list has it.
    by_cases hindex : 0 ≤ index ∧ index < (A.length : Int)
    · have hbounded := lt_slotBound_of_le hshows.represents.bounded
      have hentries := hkept.entries index.toNat
      rw [hshows.readSlot (by omega), hlength]
      unfold SlotList.readSlot
      rw [if_neg (by omega), if_neg (by omega)]
      simp only [Except.ok.injEq, ← Option.ne_none_iff_exists']
      rw [hentries]
      omega
    · -- Outside of the list nothing can be read.
      have hnothing : ¬ ∃ e, log.readSlot .none index = .ok (some e) := by
        rintro ⟨e, he⟩
        unfold OperationLog.readSlot at he
        rw [hlength] at he
        by_cases hnegative : index < 0
        · rw [if_pos hnegative] at he
          cases he
        · rw [if_neg hnegative, if_pos (by omega)] at he
          cases he
      simp only [hnothing, false_iff]
      omega

/-- A log to which nothing was appended has no slots. -/
theorem showsFrom_of_blank (h : Tracks log .blank) : log.ShowsFrom 0 := by
  obtain ⟨A, hshows, hrecords⟩ := h
  -- A list that is not empty ends with an entry, and that was appended.
  by_cases hA : A = []
  · rw [hA] at hshows
    exact ⟨[], hshows, SlotList.keptFrom_nil⟩
  · obtain ⟨e, he⟩ := hshows.represents.ends hA
    cases hrecords.covers _ e he

/-- A request that removes no single slot leaves no gap, whichever calls fail. The first slot is not
    moved down, unless a cut empties the log. -/
theorem ShowsFrom.ask (h : log.ShowsFrom first) (f : Fault) {r : SlotList.Request}
    (hr : ∀ index, r ≠ .removeSlot index) :
    ∃ first', (log.ask f r).2.ShowsFrom first' ∧
      (first ≤ first' ∨ (log.ask f r).2.length = 0 ∧ ∃ index, r = .truncate index) := by
  obtain ⟨A, hshows, hkept⟩ := h
  obtain ⟨first', hkept', hmove⟩ := hkept.ask hr
  -- Wherever the log shows the list after the request, the first slot is where the list has it.
  have hafter (hshows' : (log.ask f r).2.Shows (A.ask r).2) :
      ∃ first', (log.ask f r).2.ShowsFrom first' ∧
        (first ≤ first' ∨ (log.ask f r).2.length = 0 ∧ ∃ index, r = .truncate index) := by
    refine ⟨first', ⟨_, hshows', hkept'⟩, ?_⟩
    rcases hmove with hle | ⟨hnone, hcut⟩
    · exact .inl hle
    · exact .inr ⟨by rw [hshows'.length, hnone]; rfl, hcut⟩
  rcases hshows.ask f r with ⟨-, -, -, hshows'⟩ | ⟨-, hsame | ⟨-, hshows'⟩⟩
  · exact hafter hshows'
  · rw [hsame]
    exact ⟨first, ⟨A, hshows, hkept⟩, .inl (Nat.le_refl first)⟩
  · exact hafter hshows'

/-- Where no call fails, a cut to a slot that the log has, and that is not the last one, succeeds
    exactly if the slot is not before the first one. -/
theorem ShowsFrom.truncate_iff (h : log.ShowsFrom first) {index : Int64} (hindex : 0 ≤ index.toInt)
    (hlast : index.toInt < (log.length : Int) - 1) :
    (log.ask .none (.truncate index)).1 = .ok .done ↔ (first : Int) ≤ index.toInt := by
  obtain ⟨A, hshows, hkept⟩ := h
  have hanswer := (hshows.ask_none (hshows.represents.fits_of_no_entries
    (r := .truncate index) rfl)).1
  rw [hshows.length] at hlast
  rw [hanswer, ← hkept.truncate_iff hshows.represents.bounded hindex hlast]
  simp only [SlotList.ask]
  cases A.truncate index.toInt with
  | error e => simp
  | ok B => simp

end OperationLog

namespace LogHandle

open Host OperationLog SlotList

/-- A change that fails leaves the handle and the host as they are. -/
theorem changed_of_change_error {handle : LogHandle} {h : Host} {e : Error}
    {operation : OperationLog → Except Error OperationLog}
    (herror : (handle.changed ((handle.change operation).perform h)).1 = .error e) :
    handle.changed ((handle.change operation).perform h) = (.error e, handle, h) := by
  cases hresult : operation (handle.log h) with
  | error e' =>
    simp only [Action.perform, LogHandle.change, hresult] at herror ⊢
    cases herror
    rfl
  | ok log' =>
    simp only [Action.perform, LogHandle.change, hresult] at herror
    cases herror

namespace Session

/-! ## Sessions -/

variable {parent : String} {loc : Location} {s : Session} {log : OperationLog} {first : Nat}

/-- A step that removes no single slot leaves no gap in the log that is kept. -/
theorem showsFrom_after (h : log.ShowsFrom first) {event : Event}
    (hevent : ∀ f index, event ≠ .request f (.removeSlot index)) :
    ∃ first', (s.after log event).ShowsFrom first' ∧
      (first ≤ first' ∨ (s.after log event).length = 0 ∧
        ∃ f index, event = .request f (.truncate index)) := by
  cases event with
  | openLog f => exact ⟨first, h, .inl (Nat.le_refl first)⟩
  | close => exact ⟨first, h, .inl (Nat.le_refl first)⟩
  | request f r =>
    simp only [Session.after]
    -- A request to a closed log is not carried out.
    split
    · have hr : ∀ index, r ≠ .removeSlot index := by
        rintro index rfl
        exact hevent f index rfl
      obtain ⟨first', hshows', hle | ⟨hzero, index, rfl⟩⟩ := h.ask f hr
      · exact ⟨first', hshows', .inl hle⟩
      · exact ⟨first', hshows', .inr ⟨hzero, f, index, rfl⟩⟩
    · exact ⟨first, h, .inl (Nat.le_refl first)⟩

/-- A run that removes no single slot leaves no gap in the log that is kept. -/
theorem Keeps.run_without_gaps (hk : Keeps parent loc s log) (h : log.ShowsFrom first)
    {events : List Event} (hevents : ∀ f index, .request f (.removeSlot index) ∉ events) :
    ∃ log' first', Keeps parent loc (s.run parent events) log' ∧ log'.ShowsFrom first' := by
  -- By induction on the run; the first slot may move from step to step.
  induction events generalizing s log first with
  | nil => exact ⟨log, first, hk, h⟩
  | cons event events ih =>
    have hevent : ∀ f index, event ≠ .request f (.removeSlot index) := by
      rintro f index rfl
      exact hevents f index List.mem_cons_self
    obtain ⟨first', h', -⟩ := showsFrom_after (s := s) h hevent
    apply ih (hk.step h.openOn_eq event) h'
    intro f index hmem
    exact hevents f index (List.mem_cons_of_mem event hmem)

/-- A cut that fails leaves the handle and the host as they are. -/
theorem advance_of_truncate_error {f : Fault} {index : Int64} {e : Error}
    (herror : (s.advance parent (.request f (.truncate index))).1 = some (.error e)) :
    (s.advance parent (.request f (.truncate index))).2 = s := by
  obtain ⟨h, handle?⟩ := s
  cases handle? with
  | none => rfl
  | some handle =>
    have hanswer : (handle.ask f h (.truncate index)).1 = .error e := Option.some.inj herror
    have hask : handle.ask f h (.truncate index) = (.error e, handle, h) :=
      changed_of_change_error hanswer
    simp only [advance, hask]

/-- A log that was empty at first, and of which no single slot is removed: whatever else is done to
    it, and whichever calls fail, there is a first slot such that exactly the slots from there to
    the end can be read. No step moves it down, unless a cut empties the log. Where no call fails, a
    cut that leaves a slot, and not all of them, succeeds exactly if that slot can be read; and a
    cut that fails changes nothing. -/
theorem gapless_run {parent : String} {h h' : Host} {handle : LogHandle}
    (hopen : (openBelow .none parent).perform h = (.ok handle, h'))
    (hempty : h'.contents handle.engine = Contents.empty) {events : List Event}
    (hevents : ∀ f index, .request f (.removeSlot index) ∉ events) :
    let s := Session.run parent ⟨h, none⟩ events
    ∃ log first, s.Holds parent log ∧ log.KeptFrom first ∧
      (∀ event, (∀ f index, event ≠ .request f (.removeSlot index)) →
        ∀ log' first', (s.advance parent event).2.Holds parent log' → log'.KeptFrom first' →
          first ≤ first' ∨ log'.length = 0 ∧ ∃ f index, event = .request f (.truncate index)) ∧
      (s.handle.isSome → ∀ index : Int64, 0 ≤ index.toInt →
        index.toInt < (log.length : Int) - 1 →
        ((s.advance parent (.request .none (.truncate index))).1 = some (.ok .done) ↔
          (first : Int) ≤ index.toInt)) ∧
      ∀ f index e, (s.advance parent (.request f (.truncate index))).1 = some (.error e) →
        (s.advance parent (.request f (.truncate index))).2 = s := by
  intro s
  obtain ⟨loc, log₀, hk₀, htracks₀⟩ := keeps_of_opened hopen hempty
  obtain ⟨log, first, hk, hshows⟩ := hk₀.run_without_gaps (showsFrom_of_blank htracks₀) hevents
  refine ⟨log, first, hk.holds_of_openOn hshows.openOn_eq, hshows.keptFrom, ?_, ?_, ?_⟩
  · intro event hevent log' first' hholds hkept
    obtain ⟨after, hafter, hmove⟩ := showsFrom_after (s := s) hshows hevent
    -- The log that is held after the step is the one that is kept, and it has one first slot.
    have hsame : log' = s.after log event :=
      hholds.unique ((hk.step hshows.openOn_eq event).holds_of_openOn hafter.openOn_eq)
    subst hsame
    rw [hkept.unique hafter.keptFrom]
    exact hmove
  · intro hsome index hindex hlast
    rcases hk.request .none (.truncate index) with
      ⟨hnone, -⟩ | ⟨handle, h', handle', -, -, -, hstep, -⟩
    · rw [hnone] at hsome
      cases hsome
    · rw [hstep, Option.some.injEq]
      exact hshows.truncate_iff hindex hlast
  · -- A cut writes once, at its end.
    intro f index e herror
    exact advance_of_truncate_error herror

/-- Three entries on an empty disk, a collection below the second one, and a cut that would leave
    none of those that are kept: the first slot is the second one, and the cut is refused. -/
theorem gapless_run_of_empty_disk :
    let h := Host.ofDisk (Disk.empty ["data"])
    let opened := (openBelow .none "/data").perform h
    let handle : LogHandle := ⟨"/data/#binlog", 0, 0, noTerm⟩
    let events : List Event := [.openLog .none,
      .request .none (.appendBatch [.noOp 1, .put "u" "k" "v" 2, .noOp 2]),
      .request .none (.removeBefore 1)]
    let s := Session.run "/data" ⟨h, none⟩ events
    opened.1 = .ok handle ∧ opened.2.contents handle.engine = Contents.empty ∧
      (∀ f index, .request f (.removeSlot index) ∉ events) ∧
      ∃ log, s.Holds "/data" log ∧ log.KeptFrom 1 ∧
        (s.advance "/data" (.request .none (.truncate 0))).1 ≠ some (.ok .done) ∧
        (s.advance "/data" (.request .none (.truncate 1))).1 = some (.ok .done) := by
  intro h opened handle events s
  have hopen : opened = (.ok handle, opened.2) := rfl
  have hempty : opened.2.contents handle.engine = Contents.empty := rfl
  have hevents : ∀ f index, Event.request f (.removeSlot index) ∉ events := by
    simp [events]
  obtain ⟨log, first, hholds, hkept, -, hcuts, -⟩ := gapless_run hopen hempty hevents
  have hhandle : s.handle = some ⟨"/data/#binlog", 0, 3, 2⟩ := by decide +kernel
  -- The session holds the log that its handle shows.
  have hlog : log = (⟨"/data/#binlog", 0, 3, 2⟩ : LogHandle).log s.host :=
    (hholds.shown _ hhandle).symm
  have hlength : log.length = 3 := by rw [hlog]; rfl
  have hgone : log.readSlot .none 0 = .ok none := by
    rw [hlog]
    decide +kernel
  have hthere : log.readSlot .none 1 = .ok (some (.put "u" "k" "v" 2)) := by
    rw [hlog]
    decide +kernel
  -- The first slot is the second of the log: the one before it cannot be read, and it can.
  have hfirst : first = 1 := by
    have hbefore : ¬ ((first : Int) ≤ 0 ∧ (0 : Int) < log.length) := by
      intro hread
      obtain ⟨e, he⟩ := (hkept.reads 0).2 hread
      rw [hgone] at he
      cases he
    have hfrom := (hkept.reads 1).1 ⟨_, hthere⟩
    omega
  subst hfirst
  have hsome : s.handle.isSome := by rw [hhandle]; rfl
  refine ⟨congrArg Prod.fst hopen, hempty, hevents, log, hholds, hkept, ?_, ?_⟩
  · intro hcut
    have hle := (hcuts hsome 0 (by decide) (by rw [hlength]; decide)).1 hcut
    exact absurd hle (by decide)
  · exact (hcuts hsome 1 (by decide) (by rw [hlength]; decide)).2 (by decide)

end Session

end LogHandle

end ReplicaStore
