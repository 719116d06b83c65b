import ReplicaStore.Proofs.Log.FaultySession

/-! # Batches and single appends

    A list of entries can be appended one by one, as one batch, or cut into batches in any other
    way. A batch counts the slots on from the length and writes the new length once, at its end, so
    the batches of a cut write what one batch writes, but for the lengths between them, and each of
    these is overwritten by the next.

    * `OperationLog.grown_append`: appending one list and then another is appending both together.
    * `Session.Keeps.cut`: a cut goes through if the log has room for its entries, and leaves the
      log that one batch leaves.
    * `Session.Keeps.observe_eq`: sessions that keep one log cannot be told apart.
    * `cuts_agree`: any two cuts of a list leave sessions that cannot be told apart. -/

namespace ReplicaStore

/-! ## Writes -/

namespace Contents

/-- What is under a key after a batch depends on what was under it before, and on no other key. -/
theorem get?_applyBatch_congr {c c' : Contents} {k : Bytes} (h : c.get? k = c'.get? k)
    (batch : Batch) :
    (c.applyBatch batch).get? k = (c'.applyBatch batch).get? k := by
  induction batch generalizing c c' with
  | nil => exact h
  | cons w batch ih =>
    rw [applyBatch_cons, applyBatch_cons]
    apply ih
    rw [get?_apply, get?_apply, h]

end Contents

namespace OperationLog

open SlotKey

variable {log log' : OperationLog} {xs ys : List Entry}

/-- A length that is overwritten later leaves no trace, whatever is written in between. -/
theorem applyBatch_lengthWrite (c : Contents) (n n' : Nat) (batch : Batch) :
    ((c.applyBatch [lengthWrite n]).applyBatch batch).applyBatch [lengthWrite n'] =
      (c.applyBatch batch).applyBatch [lengthWrite n'] := by
  apply Contents.ext_get?
  intro k
  rw [get?_lengthWrite, get?_lengthWrite]
  by_cases hk : k = lengthKey
  · rw [if_pos hk, if_pos hk]
  · rw [if_neg hk, if_neg hk]
    apply Contents.get?_applyBatch_congr
    rw [get?_lengthWrite, if_neg hk]

/-- The records of two lists are written one behind the other. -/
theorem slotWrites_append (slot : Nat) (records records' : List Bytes) :
    slotWrites slot (records ++ records') =
      slotWrites slot records ++ slotWrites (slot + records.length) records' := by
  induction records generalizing slot with
  | nil => rfl
  | cons record records ih =>
    have hslot : slot + (record :: records).length = slot + 1 + records.length := by
      rw [List.length_cons]
      omega
    rw [List.cons_append, slotWrites, slotWrites, ih, hslot, List.cons_append]

/-! ## Appending to a log -/

/-- The writes of a batch of entries. -/
def growth (length : Nat) (entries : List Entry) : Batch :=
  slotWrites length (entries.map Record.bytesOf) ++ [lengthWrite (length + entries.length)]

/-- The log with entries at its end. -/
def grown (log : OperationLog) (entries : List Entry) : OperationLog :=
  match entries.getLast? with
  | none => log
  | some last =>
    ⟨log.contents.applyBatch (growth log.length entries), log.length + entries.length, last.term⟩

/-- Whether a log can take entries at its end: records can hold them, and the length record can hold
    the length that they lead to. -/
structure Takes (log : OperationLog) (entries : List Entry) : Prop where
  fits : ∀ e ∈ entries, e.Fits
  room : log.length + entries.length ≤ maxLength

theorem length_grown (log : OperationLog) (entries : List Entry) :
    (log.grown entries).length = log.length + entries.length := by
  unfold grown
  cases hlast : entries.getLast? with
  | none =>
    rw [List.getLast?_eq_none_iff.1 hlast]
    rfl
  | some last => rfl

/-- The writes of two batches leave what the writes of one leave. -/
theorem applyBatch_growth_append (c : Contents) (length : Nat) (xs ys : List Entry) :
    (c.applyBatch (growth length xs)).applyBatch (growth (length + xs.length) ys) =
      c.applyBatch (growth length (xs ++ ys)) := by
  have hrecords : slotWrites length ((xs ++ ys).map Record.bytesOf) =
      slotWrites length (xs.map Record.bytesOf) ++
        slotWrites (length + xs.length) (ys.map Record.bytesOf) := by
    rw [List.map_append, slotWrites_append, List.length_map]
  have hlength : length + xs.length + ys.length = length + (xs ++ ys).length := by
    rw [List.length_append, Nat.add_assoc]
  unfold growth
  rw [hrecords, ← hlength]
  simp only [Contents.applyBatch_append]
  -- The length between the two batches is overwritten by the one at the end.
  exact applyBatch_lengthWrite _ _ _ _

/-- Appending one list and then another is appending both together. -/
theorem grown_append (log : OperationLog) (xs ys : List Entry) :
    log.grown (xs ++ ys) = (log.grown xs).grown ys := by
  -- Only a list that is not empty writes a length, so the empty ones have to be told apart.
  cases hys : ys.getLast? with
  | none =>
    rw [List.getLast?_eq_none_iff.1 hys, List.append_nil]
    rfl
  | some last =>
    cases hxs : xs.getLast? with
    | none =>
      rw [List.getLast?_eq_none_iff.1 hxs]
      rfl
    | some last' =>
      have hboth : (xs ++ ys).getLast? = some last := by
        rw [List.getLast?_append, hys]
        rfl
      unfold grown
      simp only [hxs, hys, hboth, applyBatch_growth_append, List.length_append, Nat.add_assoc]

theorem takes_nil (h : log.length ≤ maxLength) : log.Takes [] :=
  ⟨fun _ he => absurd he List.not_mem_nil, h⟩

theorem takes_append_iff : log.Takes (xs ++ ys) ↔ log.Takes xs ∧ (log.grown xs).Takes ys := by
  constructor
  · rintro ⟨hfits, hroom⟩
    obtain ⟨hxs, hys⟩ := List.forall_mem_append.1 hfits
    rw [List.length_append] at hroom
    refine ⟨⟨hxs, by omega⟩, hys, ?_⟩
    rw [length_grown]
    omega
  · rintro ⟨⟨hxs, -⟩, hys, hroom⟩
    refine ⟨List.forall_mem_append.2 ⟨hxs, hys⟩, ?_⟩
    rw [length_grown] at hroom
    rw [List.length_append]
    omega

/-- A log takes what it can take, and nothing else. -/
theorem appendBatch_eq_ok_iff {entries : List Entry} (hlength : log.length ≤ maxLength) :
    log.appendBatch .none entries = .ok log' ↔ log.Takes entries ∧ log' = log.grown entries := by
  constructor
  · intro h
    -- A batch that went through has had room, and has left what it was to leave.
    obtain ⟨hfits, hroom⟩ := fits_of_appendBatch hlength h
    refine ⟨⟨hfits, hroom⟩, ?_⟩
    rcases appendBatch_cases h with ⟨rfl, rfl⟩ | ⟨last, records, hlast, hencode, -, rfl⟩
    · rfl
    · rw [Record.mapM_encode_eq_ok hfits, Except.ok.injEq] at hencode
      unfold grown growth
      rw [hlast, hencode]
  · rintro ⟨⟨hfits, hroom⟩, rfl⟩
    unfold appendBatch grown
    cases hlast : entries.getLast? with
    | none => rfl
    | some last =>
      simp only [Record.mapM_encode_eq_ok hfits, mapError_ok, ok_bind,
        if_neg (Nat.not_lt.2 hroom), Fault.write_none]
      rfl

/-- A log that shows a list shows, with entries at its end, the list with these at its end. -/
theorem Shows.grown {A : SlotList} {entries : List Entry} (h : log.Shows A)
    (htakes : log.Takes entries) : (log.grown entries).Shows (A.append entries) := by
  have hlength : log.length ≤ maxLength := by
    rw [h.length]
    exact h.represents.bounded
  obtain ⟨log', hok, hshows⟩ := h.appendBatch htakes.fits (h.length ▸ htakes.room)
  rw [((appendBatch_eq_ok_iff hlength).1 hok).2] at hshows
  exact hshows

end OperationLog

/-! ## Cuts -/

namespace SlotList

def Request.Appends : Request → Prop
  | .append _ => True
  | .appendBatch _ => True
  | _ => False

/-- Whether requests append the entries of a list in their order, be it one by one or in batches. -/
structure Cuts (entries : List Entry) (requests : List Request) : Prop where
  appends : ∀ r ∈ requests, r.Appends
  joined : requests.flatMap Request.entries = entries

end SlotList

open SlotList

namespace OperationLog

variable {log : OperationLog} {r : Request}

/-- A batch goes through if the log can take its entries, and then leaves the log with these. -/
theorem changed_appendBatch (hlength : log.length ≤ maxLength) (entries : List Entry) :
    ((log.changed (log.appendBatch .none entries)).1 = .ok .done ↔ log.Takes entries) ∧
      (log.Takes entries →
        (log.changed (log.appendBatch .none entries)).2 = log.grown entries) := by
  refine ⟨⟨fun hdone => ?_, fun htakes => ?_⟩, fun htakes => ?_⟩
  · cases hresult : log.appendBatch .none entries with
    | ok log' => exact ((appendBatch_eq_ok_iff hlength).1 hresult).1
    | error e =>
      rw [hresult] at hdone
      cases hdone
  · rw [(appendBatch_eq_ok_iff hlength).2 ⟨htakes, rfl⟩]
    rfl
  · rw [(appendBatch_eq_ok_iff hlength).2 ⟨htakes, rfl⟩]
    rfl

/-- So does a request that appends; a single entry is a batch of one. -/
theorem ask_of_appends (hr : r.Appends) (hlength : log.length ≤ maxLength) :
    ((log.ask .none r).1 = .ok .done ↔ log.Takes r.entries) ∧
      (log.Takes r.entries → (log.ask .none r).2 = log.grown r.entries) := by
  -- The other requests append nothing.
  cases r with
  | append e => exact changed_appendBatch hlength [e]
  | appendBatch entries => exact changed_appendBatch hlength entries
  | readSlot index => cases hr
  | truncate index => cases hr
  | removeSlot index => cases hr
  | removeBefore index => cases hr

end OperationLog

/-! ## Sessions -/

namespace LogHandle

open Host OperationLog

namespace Session

/-- What an observer sees of steps: the answer to each of them, and what the log remembers after
    it. -/
def observe (parent : String) (s : Session) : List Event → List (Answer × Option (Nat × Int64))
  | [] => []
  | event :: events =>
    let (answer, s') := s.advance parent event
    (answer, s'.shown) :: observe parent s' events

/-- Requests of which no call to the engine fails. -/
def unhindered (requests : List Request) : List Event :=
  requests.map (.request .none)

/-- Whether a log does all that it is asked for. -/
def Does (parent : String) (s : Session) (requests : List Request) : Prop :=
  ∀ seen ∈ s.observe parent (unhindered requests), seen.1 = some (.ok .done)

variable {parent : String} {loc : Location} {s s' : Session} {log : OperationLog}
  {entries : List Entry} {requests : List Request}

/-- One request of an open log. -/
theorem Keeps.ask (hk : Keeps parent loc s log) (hopen : s.handle.isSome) (f : Fault)
    (r : Request) :
    (s.advance parent (.request f r)).1 = some (log.ask f r).1 ∧
      (s.advance parent (.request f r)).2.handle.isSome ∧
      Keeps parent loc (s.advance parent (.request f r)).2 (log.ask f r).2 := by
  rcases hk.request f r with ⟨hclosed, -⟩ | ⟨handle, h', handle', -, -, -, hstep, hk'⟩
  · rw [hclosed] at hopen
    cases hopen
  · rw [hstep]
    exact ⟨rfl, rfl, hk'⟩

/-- A cut goes through if the log can take its entries, and leaves the log with these. -/
theorem Keeps.cut (hk : Keeps parent loc s log) (hopen : s.handle.isSome)
    (hlength : log.length ≤ maxLength) (hcut : Cuts entries requests) :
    (s.Does parent requests ↔ log.Takes entries) ∧
      (log.Takes entries →
        (s.run parent (unhindered requests)).handle.isSome ∧
          Keeps parent loc (s.run parent (unhindered requests)) (log.grown entries)) := by
  obtain ⟨happends, rfl⟩ := hcut
  -- By induction on the requests; that the log is open, and kept with what was appended so far, is
  -- the invariant.
  induction requests generalizing s log with
  | nil => exact ⟨⟨fun _ => takes_nil hlength, fun _ _ hseen => absurd hseen List.not_mem_nil⟩,
      fun _ => ⟨hopen, hk⟩⟩
  | cons r requests ih =>
    obtain ⟨hr, happends⟩ := List.forall_mem_cons.1 happends
    obtain ⟨hanswer, hopen', hk'⟩ := hk.ask hopen .none r
    obtain ⟨hdone, hgrown⟩ := ask_of_appends hr hlength
    -- What is seen of the requests is the answer to the first one, and what is seen of the others.
    have hdoes : s.Does parent (r :: requests) ↔ (log.ask .none r).1 = .ok .done ∧
        (s.advance parent (.request .none r)).2.Does parent requests := by
      rw [← Option.some_inj, ← hanswer]
      exact List.forall_mem_cons
    rw [List.flatMap_cons, takes_append_iff, grown_append, hdoes, hdone]
    by_cases htakes : log.Takes r.entries
    · rw [hgrown htakes] at hk'
      have hlength' : (log.grown r.entries).length ≤ maxLength := by
        rw [length_grown]
        exact htakes.room
      obtain ⟨hdoes', hkept⟩ := ih hk' hopen' hlength' happends
      rw [hdoes']
      exact ⟨Iff.rfl, fun hboth => hkept hboth.2⟩
    · -- The log refuses this part, and neither does what it is asked for nor can take the whole.
      have hnot : ∀ rest : Prop, ¬ (log.Takes r.entries ∧ rest) :=
        fun _ hboth => htakes hboth.1
      exact ⟨iff_of_false (hnot _) (hnot _), fun hboth => absurd hboth (hnot _)⟩

/-! ## Observers -/

/-- What is told of an opening: why the engine was not opened, or what of its contents was not read,
    if so. -/
def opening (f : Fault) (parent : String) (log : OperationLog) : Except Error Reply :=
  let engine := Call.openAt (Path.join parent directoryName)
  if f.fails engine then .error (.engine engine.failure)
  else (openOn f log.contents).map fun _ => .done

/-- Whether a log opens, and what is told of it, depends on its contents and the fault. -/
theorem Keeps.openLog_eq (hk : Keeps parent loc s log) (f : Fault) :
    (s.advance parent (.openLog f)).1 = some (opening f parent log) ∧
      (s.advance parent (.openLog f)).2.handle.isSome =
        (opening f parent log).toOption.isSome := by
  obtain ⟨hready, hfree⟩ := hk.closed
  have hresult : ((openBelow f parent).perform s.closed).1.map (fun _ => Reply.done) =
      opening f parent log := by
    unfold opening
    -- An opening fails with the engine, with the contents, or not at all; each tells what the
    -- contents and the fault determine.
    simp only
    cases hcall : f.fails (.openAt (Path.join parent directoryName)) with
    | true =>
      obtain ⟨h', hopen, -⟩ := perform_openBelow_of_fails hready hfree hcall
      rw [hopen]
      rfl
    | false =>
      cases hopenOn : openOn f log.contents with
      | error e =>
        obtain ⟨h', hopen, -⟩ := perform_openBelow_of_unreadable hready hfree hcall hopenOn
        rw [hopen]
        rfl
      | ok log' =>
        obtain ⟨handle, h', hopen, -⟩ := perform_openBelow_of_ready hready hfree hcall hopenOn
        rw [hopen]
        rfl
  refine ⟨congrArg some hresult, ?_⟩
  rw [← hresult]
  show ((openBelow f parent).perform s.closed).1.toOption.isSome = _
  cases ((openBelow f parent).perform s.closed).1 <;> rfl

theorem Keeps.shown_eq (hk : Keeps parent loc s log) :
    s.shown = if s.handle.isSome then some (log.length, log.lastTerm) else none := by
  unfold Session.shown
  cases hhandle : s.handle with
  | none => rfl
  | some handle =>
    have hlog := hk.shown handle hhandle
    rw [← hlog]
    rfl

/-- One step of two sessions that keep the same log: the answers are the same, and so are the logs
    after them. -/
theorem Keeps.advance_eq (hk : Keeps parent loc s log) (hk' : Keeps parent loc s' log)
    (hsame : s.handle.isSome = s'.handle.isSome) (event : Event) :
    (s.advance parent event).1 = (s'.advance parent event).1 ∧
      (s.advance parent event).2.handle.isSome = (s'.advance parent event).2.handle.isSome ∧
      s.after log event = s'.after log event := by
  cases event with
  | openLog f =>
    obtain ⟨hanswer, hopen⟩ := hk.openLog_eq f
    obtain ⟨hanswer', hopen'⟩ := hk'.openLog_eq f
    exact ⟨hanswer.trans hanswer'.symm, hopen.trans hopen'.symm, rfl⟩
  | close => exact ⟨rfl, rfl, rfl⟩
  | request f r =>
    have hafter : s.after log (.request f r) = s'.after log (.request f r) := by
      unfold after
      rw [hsame]
    -- Both are open or both are closed, and an open log answers as the log that is kept.
    cases hhandle : s.handle with
    | none =>
      have hhandle' : s'.handle = none := by
        rw [hhandle] at hsame
        exact Option.not_isSome_iff_eq_none.1 (Bool.eq_false_iff.1 hsame.symm)
      refine ⟨?_, ?_, hafter⟩
      · simp only [Session.advance, hhandle, hhandle']
      · simp only [Session.advance, hhandle, hhandle']
    | some handle =>
      have hopen : s.handle.isSome := by
        rw [hhandle]
        rfl
      obtain ⟨hanswer, hlive, -⟩ := hk.ask hopen f r
      obtain ⟨hanswer', hlive', -⟩ := hk'.ask (hsame ▸ hopen) f r
      exact ⟨hanswer.trans hanswer'.symm, hlive.trans hlive'.symm, hafter⟩

/-- A log that shows a list shows one after every step, too. -/
theorem exists_shows_after {A : SlotList} (hshows : log.Shows A) (s : Session) (event : Event) :
    ∃ B, (s.after log event).Shows B := by
  cases event with
  | openLog f => exact ⟨A, hshows⟩
  | close => exact ⟨A, hshows⟩
  | request f r =>
    show ∃ B, (if s.handle.isSome then (log.ask f r).2 else log).Shows B
    -- Whichever calls fail, the log shows the list before the request or the one after it.
    split
    · rcases hshows.ask f r with ⟨-, -, -, hnext⟩ | ⟨-, hsame | ⟨-, hnext⟩⟩
      · exact ⟨_, hnext⟩
      · rw [hsame]
        exact ⟨A, hshows⟩
      · exact ⟨_, hnext⟩
    · exact ⟨A, hshows⟩

/-- Sessions that keep the same log, open in both or in neither, cannot be told apart, whatever is
    done to them and whichever calls fail. -/
theorem Keeps.observe_eq (hk : Keeps parent loc s log) (hk' : Keeps parent loc s' log)
    (hsame : s.handle.isSome = s'.handle.isSome) {A : SlotList} (hshows : log.Shows A)
    (events : List Event) : s.observe parent events = s'.observe parent events := by
  -- By induction on the steps; the invariant is that both keep one log, and that it can be opened.
  induction events generalizing s s' log A with
  | nil => rfl
  | cons event events ih =>
    obtain ⟨hanswer, hsame', hafter⟩ := hk.advance_eq hk' hsame event
    obtain ⟨B, hshows'⟩ := exists_shows_after hshows s event
    have hnext := hk.step hshows.openOn_eq event
    have hnext' := hk'.step hshows.openOn_eq event
    rw [← hafter] at hnext'
    have hshown : (s.advance parent event).2.shown = (s'.advance parent event).2.shown := by
      rw [hnext.shown_eq, hnext'.shown_eq, hsame']
    show ((s.advance parent event).1, (s.advance parent event).2.shown) ::
        (s.advance parent event).2.observe parent events = _
    rw [hanswer, hshown, ih hnext hnext' hsame' hshows']
    rfl

/-! ## Cuts of one list -/

/-- A log that can take a list of entries at its end takes it in whatever way it is cut, and one
    that cannot refuses a part of every cut. All cuts leave the log that the whole list leaves as
    one batch, on the disk and for the open handle, and no later step, with calls that fail or
    without, tells one cut from another. -/
theorem cuts_agree {parent : String} {h h' : Host} {handle : LogHandle}
    (hopen : (openBelow .none parent).perform h = (.ok handle, h'))
    (hempty : h'.contents handle.engine = Contents.empty) (events : List Event)
    (hlive : (Session.run parent ⟨h, none⟩ events).handle.isSome) (entries : List Entry) :
    let s := Session.run parent ⟨h, none⟩ events
    ∃ log, s.Holds parent log ∧
      (∀ requests, Cuts entries requests → (s.Does parent requests ↔ log.Takes entries)) ∧
      (log.Takes entries → ∃ log', log.appendBatch .none entries = .ok log' ∧
        (∀ requests, Cuts entries requests →
          (s.run parent (unhindered requests)).Holds parent log' ∧
            (s.run parent (unhindered requests)).handle.isSome) ∧
        ∀ requests requests', Cuts entries requests → Cuts entries requests' → ∀ later,
          (s.run parent (unhindered requests)).observe parent later =
            (s.run parent (unhindered requests')).observe parent later) := by
  intro s
  obtain ⟨loc, log₀, hk₀, htracks₀⟩ := keeps_of_opened hopen hempty
  obtain ⟨log, hk, htracks⟩ := hk₀.run htracks₀ events
  obtain ⟨A, hshows, -⟩ := htracks
  have hlength : log.length ≤ maxLength := by
    rw [hshows.length]
    exact hshows.represents.bounded
  refine ⟨log, hk.holds_of_openOn hshows.openOn_eq,
    fun requests hcut => (hk.cut hlive hlength hcut).1, fun htakes => ?_⟩
  -- The whole list as one batch is one of its cuts, so all of them come down to it.
  have hwhole : log.appendBatch .none entries = .ok (log.grown entries) :=
    (appendBatch_eq_ok_iff hlength).2 ⟨htakes, rfl⟩
  have hgrown : (log.grown entries).Shows (A.append entries) := hshows.grown htakes
  refine ⟨log.grown entries, hwhole, ?_, ?_⟩
  · intro requests hcut
    obtain ⟨hlive', hk'⟩ := (hk.cut hlive hlength hcut).2 htakes
    exact ⟨hk'.holds_of_openOn hgrown.openOn_eq, hlive'⟩
  · intro requests requests' hcut hcut'
    obtain ⟨hlive₁, hk₁⟩ := (hk.cut hlive hlength hcut).2 htakes
    obtain ⟨hlive₂, hk₂⟩ := (hk.cut hlive hlength hcut').2 htakes
    exact hk₁.observe_eq hk₂ (hlive₁.trans hlive₂.symm) hgrown

/-- A log of which a slot was collected and a slot cut off takes two entries as one batch, and takes
    them one by one with an empty batch between, and nobody can tell which it was. -/
theorem cuts_agree_over_gap :
    let h := Host.ofDisk (Disk.empty ["data"])
    let opened := (openBelow .none "/data").perform h
    let handle : LogHandle := ⟨"/data/#binlog", 0, 0, noTerm⟩
    let s := Session.run "/data" ⟨h, none⟩ [.openLog .none,
      .request .none (.appendBatch [.noOp 1, .put "u" "k" "v" 2, .noOp 2]),
      .request .none (.removeSlot 0), .request .none (.truncate 1)]
    let entries : List Entry := [.noOp 3, .put "u" "k" "w" 4]
    let batch : List Request := [.appendBatch entries]
    let pieces : List Request := [.append (.noOp 3), .appendBatch [], .append (.put "u" "k" "w" 4)]
    opened.1 = .ok handle ∧ opened.2.contents handle.engine = Contents.empty ∧
      s.handle.isSome ∧ Cuts entries batch ∧ Cuts entries pieces ∧
      s.Does "/data" batch ∧ s.Does "/data" pieces ∧
      ∃ log, (s.run "/data" (unhindered batch)).Holds "/data" log ∧
        (s.run "/data" (unhindered pieces)).Holds "/data" log ∧
        ∀ later, (s.run "/data" (unhindered batch)).observe "/data" later =
          (s.run "/data" (unhindered pieces)).observe "/data" later := by
  intro h opened handle s entries batch pieces
  have hopen : opened = (.ok handle, opened.2) := rfl
  have hempty : opened.2.contents handle.engine = Contents.empty := rfl
  have hlive : s.handle.isSome := by decide +kernel
  have hbatch : Cuts entries batch := ⟨by simp [batch, Request.Appends], rfl⟩
  have hpieces : Cuts entries pieces := ⟨by simp [pieces, Request.Appends], rfl⟩
  -- That the batch goes through is seen by running it; of the pieces it follows.
  have hseen : s.observe "/data" (unhindered batch) = [(some (.ok .done), some (4, 4))] := by
    decide +kernel
  have hdoes : s.Does "/data" batch := by
    unfold Does
    rw [hseen]
    simp
  obtain ⟨log, -, hiff, hagree⟩ := cuts_agree hopen hempty _ hlive entries
  have htakes := (hiff batch hbatch).1 hdoes
  obtain ⟨log', -, hholds, hobserve⟩ := hagree htakes
  exact ⟨congrArg Prod.fst hopen, hempty, hlive, hbatch, hpieces, hdoes,
    (hiff pieces hpieces).2 htakes, log', (hholds batch hbatch).1, (hholds pieces hpieces).1,
    hobserve batch pieces hbatch hpieces⟩

end Session

end LogHandle

end ReplicaStore
