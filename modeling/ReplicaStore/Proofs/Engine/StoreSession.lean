import ReplicaStore.Proofs.Engine.Serving
import ReplicaStore.Proofs.Engine.Watch

/-! # Sessions of a store

    A store is an engine in a directory of its own. It is opened and closed, asked for keys, written
    in batches, compacted, and walked by readers, which are dropped before it is closed. Calls may
    fail at every step.

    * `StoreSession`: a host with a store that comes and goes, and its readers.
    * `Stands`: what a session keeps, `stands_run`: through every run.
    * `Stands.contents_eq`: an open store shows what stands on the disk. -/

namespace ReplicaStore

open Host

/-! ## Events -/

/-- A host, the engine of the store while it is open, and a place for every reader that was ever
    made, in the order of time; the place of a reader that was dropped is empty. -/
structure StoreSession where
  host : Host
  engine : Option EngineId
  readers : List (Option Reader)

namespace StoreSession

inductive Event where
  /-- It is opened; one that is open stays. -/
  | openStore (f : Fault)
  /-- It is closed, and its readers are dropped before. -/
  | close
  | get (f : Fault) (key : Bytes)
  | write (f : Fault) (batch : Batch)
  | compact (f : Fault)
  | iterate
  /-- A reader is moved, and shows where it is then. -/
  | move (n : Nat) (f : Fault) (m : Move)
  | dropReader (n : Nat)

inductive Response where
  | done
  /-- The value of a key, if it has one. -/
  | value (v : Option Bytes)
  /-- The number of the new reader. -/
  | reader (n : Nat)
  | sight (s : Sight)

abbrev Answer := Option (Except Error Response)

/-- The reader of a number, if it was not dropped. -/
def reader? (s : StoreSession) (n : Nat) : Option Reader :=
  s.readers[n]?.join

/-- The readers that were not dropped. -/
def present (readers : List (Option Reader)) : List Reader :=
  readers.filterMap id

/-- The host without readers. -/
def dropAll (readers : List Reader) (h : Host) : Host :=
  readers.foldl (fun h r => r.drop h) h

/-- A step on the engine, if the store is open. -/
def onEngine (s : StoreSession) (step : EngineId → Answer × StoreSession) : Answer × StoreSession :=
  match s.engine with
  | none => (none, s)
  | some id => step id

/-- A step: its answer, and what is there after it. -/
def step (directory : String) (s : StoreSession) : Event → Answer × StoreSession
  | .openStore f =>
    match s.engine with
    | some _ => (none, s)
    | none =>
      let (r, h) := (Host.openEngine f directory).perform s.host
      (some (r.map fun _ => .done), { s with host := h, engine := r.toOption })
  | .close => s.onEngine fun id =>
    (some (.ok .done),
      ⟨(dropAll (present s.readers) s.host).dropOwner id, none, s.readers.map fun _ => none⟩)
  | .get f key => s.onEngine fun id =>
    let (r, h) := (Host.get f id key).perform s.host
    (some (r.map .value), { s with host := h })
  | .write f batch => s.onEngine fun id =>
    let (r, h) := (Host.write f id batch).perform s.host
    (some (r.map fun _ => .done), { s with host := h })
  | .compact f => s.onEngine fun id =>
    let (r, h) := (Host.compact f id).perform s.host
    (some (r.map fun _ => .done), { s with host := h })
  | .iterate => s.onEngine fun id =>
    let (r, h) := Reader.make s.host id
    (some (.ok (.reader s.readers.length)), { s with host := h, readers := s.readers ++ [some r] })
  | .move n f m =>
    match s.reader? n with
    | none => (none, s)
    | some r =>
      let r := r.move fun c => c.move m
      (some (.ok (.sight (r.sight f))), { s with readers := s.readers.set n (some r) })
  | .dropReader n =>
    match s.reader? n with
    | none => (none, s)
    | some r => (some (.ok .done),
        { s with host := r.drop s.host, readers := s.readers.set n none })

def run (directory : String) (s : StoreSession) (events : List Event) : StoreSession :=
  events.foldl (fun s e => (s.step directory e).2) s

/-! ## What a session keeps -/

variable {directory : String} {loc : Location} {h : Host} {id : EngineId} {c : Contents}

/-- When all its readers are dropped, an engine has none. -/
theorem serving_dropAll {readers : List Reader}
    (hs : Serving directory loc h id readers.length c) (hsame : ∀ r ∈ readers, r.engine = id) :
    Serving directory loc (StoreSession.dropAll readers h) id 0 c := by
  -- One reader less with each step; the engine is the same for all of them.
  induction readers generalizing h with
  | nil => exact hs
  | cons r readers ih =>
    have hdrop : Serving directory loc (r.drop h) id readers.length c := by
      rw [Reader.drop, hsame r List.mem_cons_self]
      exact hs.recount (· - 1)
    exact ih hdrop fun r' hmem => hsame r' (List.mem_cons_of_mem r hmem)

/-- Whether a store stands: while it is closed, its directory is ready and it has no readers; while
    it is open, its engine serves the readers that are there. -/
inductive Stands (directory : String) (loc : Location) : StoreSession → Prop
  | idle {h : Host} {readers : List (Option Reader)} {c : Contents}
      (hready : Ready directory loc h.disk c) (hfree : Free loc h.engines)
      (hnone : present readers = []) : Stands directory loc ⟨h, none, readers⟩
  | works {h : Host} {id : EngineId} {readers : List (Option Reader)} {c : Contents}
      (hs : Serving directory loc h id (present readers).length c)
      (hsame : ∀ r ∈ present readers, r.engine = id) : Stands directory loc ⟨h, some id, readers⟩

variable {s : StoreSession} {readers : List (Option Reader)} {n : Nat} {r : Reader}

theorem reader?_eq_some_iff : s.reader? n = some r ↔ s.readers[n]? = some (some r) :=
  Option.join_eq_some_iff

theorem mem_present_of_getElem? (hr : readers[n]? = some (some r)) : r ∈ present readers :=
  List.mem_filterMap.2 ⟨some r, List.mem_of_getElem? hr, rfl⟩

theorem present_append (readers : List (Option Reader)) (r : Reader) :
    present (readers ++ [some r]) = present readers ++ [r] := by
  unfold present
  rw [List.filterMap_append]
  rfl

/-- A store that is opened stands, whether that succeeds or fails. -/
theorem stands_openStore (hready : Ready directory loc h.disk c) (hfree : Free loc h.engines)
    (hnone : present readers = []) (f : Fault) :
    Stands directory loc (step directory ⟨h, none, readers⟩ (.openStore f)).2 := by
  simp only [step]
  cases hcall : f.fails (.openAt directory) with
  | true =>
    rw [perform_openEngine_of_fails hcall]
    exact .idle hready hfree hnone
  | false =>
    obtain ⟨d', hopen, hkept, -⟩ := perform_openEngine_of_ready hready hfree hcall
    rw [hopen]
    -- There are no readers while a store is closed, so the engine starts with none.
    refine .works ⟨hkept, h.engines, ?_, hfree⟩ ?_
    · rw [hnone]
      rfl
    · rw [hnone]
      exact nofun

theorem stands_close (hs : Serving directory loc h id (present readers).length c)
    (hsame : ∀ r ∈ present readers, r.engine = id) :
    Stands directory loc (step directory ⟨h, some id, readers⟩ .close).2 := by
  obtain ⟨hkept, hfree⟩ := (serving_dropAll hs hsame).dropOwner
  -- Every place of a reader is empty afterwards.
  refine .idle hkept.ready hfree ?_
  apply List.filterMap_eq_nil_iff.2
  intro r? hmem
  obtain ⟨-, -, rfl⟩ := List.mem_map.1 hmem
  rfl

theorem stands_write (hs : Serving directory loc h id (present readers).length c)
    (hsame : ∀ r ∈ present readers, r.engine = id) (f : Fault) (batch : Batch) :
    Stands directory loc (step directory ⟨h, some id, readers⟩ (.write f batch)).2 := by
  simp only [step, onEngine, perform_write]
  cases f.fails (.write batch) with
  | true => exact .works hs hsame
  | false => exact .works (hs.setContents _) hsame

theorem stands_iterate (hs : Serving directory loc h id (present readers).length c)
    (hsame : ∀ r ∈ present readers, r.engine = id) :
    Stands directory loc (step directory ⟨h, some id, readers⟩ .iterate).2 := by
  -- The host counts one reader more, and so does the session.
  have hserving : Serving directory loc (Reader.make h id).2 id ((present readers).length + 1) c :=
    hs.recount (· + 1)
  have hpresent := present_append readers (Reader.make h id).1
  have hlength := congrArg List.length hpresent
  rw [List.length_append, List.length_singleton] at hlength
  rw [← hlength] at hserving
  refine .works hserving ?_
  intro r hmem
  rcases List.mem_append.1 (hpresent ▸ hmem) with hold | hnew
  · exact hsame r hold
  · rw [List.mem_singleton.1 hnew]
    rfl

/-- A reader that is moved or dropped walks the engine of the store. -/
theorem stands_move (hs : Stands directory loc s) (n : Nat) (f : Fault) (m : Move) :
    Stands directory loc (s.step directory (.move n f m)).2 := by
  simp only [step]
  cases hr : s.reader? n with
  | none => exact hs
  | some r =>
    have hplace := reader?_eq_some_iff.1 hr
    -- The moved reader takes the place of the other one, so there are as many as before.
    have hperm : (_ :: present s.readers).Perm (r :: present (s.readers.set n (some _))) :=
      perm_filterMap_set hplace (some (r.move fun c => c.move m)) id
    cases hs with
    | idle hready hfree hnone =>
      -- While a store is closed, there is no reader to move.
      have hmem := mem_present_of_getElem? hplace
      rw [hnone] at hmem
      cases hmem
    | works hs hsame =>
      have hlength := Nat.succ.inj hperm.length_eq
      rw [hlength] at hs
      refine .works hs ?_
      intro r' hmem
      rcases List.mem_cons.1 (hperm.mem_iff.2 (List.mem_cons_of_mem r hmem)) with rfl | hold
      · exact hsame r (mem_present_of_getElem? hplace)
      · exact hsame r' hold

theorem stands_dropReader (hs : Stands directory loc s) (n : Nat) :
    Stands directory loc (s.step directory (.dropReader n)).2 := by
  simp only [step]
  cases hr : s.reader? n with
  | none => exact hs
  | some r =>
    have hplace := reader?_eq_some_iff.1 hr
    have hmem := mem_present_of_getElem? hplace
    -- Without the dropped reader, there is one less, for the host and for the session.
    have hperm : (present s.readers).Perm (r :: present (s.readers.set n none)) :=
      perm_filterMap_set hplace none id
    cases hs with
    | idle hready hfree hnone =>
      rw [hnone] at hmem
      cases hmem
    | @works h id readers c hs hsame =>
      have hdrop : Serving directory loc (r.drop h) id ((present readers).length - 1) c := by
        rw [Reader.drop, hsame r hmem]
        exact hs.recount (· - 1)
      rw [hperm.length_eq, List.length_cons, Nat.add_sub_cancel] at hdrop
      exact .works hdrop fun r' hmem' => hsame r' (hperm.mem_iff.2 (List.mem_cons_of_mem r hmem'))

/-! ## Steps and runs -/

/-- Every step leaves a store standing. -/
theorem stands_step (hs : Stands directory loc s) (e : Event) :
    Stands directory loc (s.step directory e).2 := by
  cases hs with
  | idle hready hfree hnone =>
    have hs : Stands directory loc ⟨_, none, _⟩ := .idle hready hfree hnone
    cases e with
    | openStore f => exact stands_openStore hready hfree hnone f
    | move n f m => exact stands_move hs n f m
    | dropReader n => exact stands_dropReader hs n
    -- Everything else is asked of the engine, and there is none.
    | _ => exact hs
  | works hserving hsame =>
    have hs : Stands directory loc ⟨_, some _, _⟩ := .works hserving hsame
    cases e with
    | openStore f => exact hs
    | close => exact stands_close hserving hsame
    | get f key =>
      simp only [step, onEngine, perform_get]
      exact hs
    | write f batch => exact stands_write hserving hsame f batch
    | compact f =>
      simp only [step, onEngine, perform_compact]
      exact hs
    | iterate => exact stands_iterate hserving hsame
    | move n f m => exact stands_move hs n f m
    | dropReader n => exact stands_dropReader hs n

theorem stands_run (hs : Stands directory loc s) (events : List Event) :
    Stands directory loc (s.run directory events) := by
  -- By induction on the events, one step each.
  induction events generalizing s with
  | nil => exact hs
  | cons e events ih => exact ih (stands_step hs e)

/-- What an open store shows is what stands on the disk for it. -/
theorem Stands.contents_eq (hs : Stands directory loc s) (hid : s.engine = some id) :
    s.host.contents id = stored s.host directory := by
  cases hs with
  | idle hready hfree hnone => cases hid
  | works hs hsame =>
    cases hid
    rw [hs.contents_eq, hs.kept.ready.stored_eq]

end StoreSession

end ReplicaStore
