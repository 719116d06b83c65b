import ReplicaStore.Proofs.Engine.StoreSession
import ReplicaStore.Proofs.Namespace.Succession

/-! # Readers are snapshots

    A reader shows the contents that its namespace had when the reader was made, and nothing else
    that ever happens shows in it: not what is written later, nor that the namespace is closed and
    opened again, that other readers come and go, or that the database is dropped. The same holds of
    the readers of a store.

    * `TakesSnapshot`: a new reader shows, from then on, what a pointer into the pairs shows.
    * `takesSnapshot_run`: so it does at every moment of every run. -/

namespace ReplicaStore

open Host

/-! ## Readers of namespaces -/

namespace Database.Succession

variable {root : String} {loc : Location} {s : Succession} {db : Database} {name : String}
  {tables : String → Contents} {id : EngineId} {n : Nat} {r : Reader}

/-- How an event moves the reader of a number. -/
def moved? (n : Nat) : Event → Option Move
  | .move n' _ m => if n' = n then some m else none
  | _ => none

/-- Whether a reader that is made of a namespace takes a snapshot: whatever happens after that, as
    long as the reader is not dropped, it shows what a pointer shows, after the same moves, into the
    pairs that the namespace had when the reader was made. -/
def TakesSnapshot (root : String) (s : Succession) (name : String) : Prop :=
  let n := s.readers.length
  let made := s.step root (.iterate name)
  made.1 = some (.ok (.reader (some n))) ∧
    ∀ since : List Event, .dropReader n ∉ since → ∀ f m,
      ((made.2.run root since).step root (.move n f m)).1 =
        some (.ok (.sight (((Pointer.before (stored s.host (directoryOf root name)).pairs).walk
          (since.filterMap (moved? n) ++ [m])).sight f)))

/-- The reader of a number, whatever it reads. -/
def numbered? (n : Nat) (s : Succession) : Option Reader :=
  (s.reader? n).map NamedReader.reader

/-- No step but its own moves touches a reader that is not dropped. -/
theorem numbered?_step (hr : numbered? n s = some r) (e : Event) (hkept : e ≠ .dropReader n) :
    numbered? n (s.step root e).2 = some (r.walk (moved? n e).toList) := by
  obtain ⟨r, hplace, rfl⟩ := Option.map_eq_some_iff.1 hr
  -- A step leaves the readers alone, adds one behind them, or changes one place among them.
  cases e with
  | create f =>
    simp only [step]
    split <;> exact hr
  | drop =>
    simp only [step, onDatabase]
    split
    · exact hr
    · exact congrArg (Option.map NamedReader.reader) (join_getElem?_map hplace strand)
  | openNamespace f name =>
    simp only [step, onDatabase]
    split <;> exact hr
  | closeNamespace name =>
    simp only [step, onDatabase]
    split <;> exact hr
  | get f name key =>
    simp only [step, onDatabase]
    split <;> exact hr
  | write f name w =>
    simp only [step, onDatabase]
    split <;> exact hr
  | iterate name =>
    simp only [step, onDatabase]
    split
    · exact hr
    · split
      · exact hr
      · exact congrArg (Option.map NamedReader.reader) (join_getElem?_append hplace _)
  | move k f m =>
    simp only [step, moved?]
    -- The move is that of the reader, or of one in another place.
    by_cases hk : k = n
    · subst hk
      rw [hplace, if_pos rfl]
      exact congrArg (Option.map NamedReader.reader) (join_getElem?_set hplace _)
    · rw [if_neg hk]
      split
      · exact hr
      · exact (congrArg (Option.map NamedReader.reader) (join_getElem?_set_of_ne hk _)).trans hr
  | dropReader k =>
    have hk : k ≠ n := fun heq => hkept (heq ▸ rfl)
    simp only [step]
    split
    · exact hr
    · exact (congrArg (Option.map NamedReader.reader) (join_getElem?_set_of_ne hk _)).trans hr

/-- A reader that is not dropped goes where its moves lead it. -/
theorem numbered?_run (hr : numbered? n s = some r) {events : List Event}
    (hkept : .dropReader n ∉ events) :
    numbered? n (s.run root events) = some (r.walk (events.filterMap (moved? n))) := by
  have hstep : ∀ (s : Succession) (r : Reader) (e : Event), numbered? n s = some r →
      ¬ e = .dropReader n → numbered? n (s.step root e).2 = some (r.walk (moved? n e).toList) :=
    fun _ _ e hr hne => numbered?_step hr e hne
  exact reader?_foldl hstep (fun e hmem heq => hkept (heq ▸ hmem)) hr

/-- A reader that is moved shows where it is then. -/
theorem step_move (hr : numbered? n s = some r) (f : Fault) (m : Move) :
    (s.step root (.move n f m)).1 = some (.ok (.sight ((r.walk [m]).sight f))) := by
  obtain ⟨r, hplace, rfl⟩ := Option.map_eq_some_iff.1 hr
  simp only [step, hplace]
  rfl

/-- A reader of a namespace that is open takes a snapshot. -/
theorem takesSnapshot_of_sound (hs : Sound root loc s tables) (hdb : s.database = some db)
    (hopen : db.isOpen name = true) : s.TakesSnapshot root name := by
  obtain ⟨id, hid, hmem⟩ := engineOf?_of_isOpen hopen
  -- What is copied is what the engine holds, and that is what the disk stores.
  have hcontents : s.host.contents id = stored s.host (directoryOf root name) := by
    cases hs with
    | idle hi hown => cases hdb
    | works hroot hr =>
      cases hdb
      rw [hr.contents_eq hmem, ← hroot, hr.below.stored_eq (hr.manages.valid name id hmem)]
  have hmade : s.step root (.iterate name) = (some (.ok (.reader (some s.readers.length))),
      { s with
        host := (Reader.make s.host id).2
        readers := s.readers ++ [some ⟨name, (Reader.make s.host id).1, false⟩] }) := by
    simp only [step, onDatabase, hdb, newReader?, hid]
    rfl
  refine ⟨by rw [hmade], ?_⟩
  intro since hkept f m
  have hreader : numbered? s.readers.length (s.step root (.iterate name)).2 =
      some (Reader.make s.host id).1 := by
    rw [hmade]
    unfold numbered? reader?
    rw [List.getElem?_concat_length]
    rfl
  -- The last move is one more behind those that came since.
  rw [step_move (numbered?_run hreader hkept), ← Reader.walk_append, sight_walk_make, hcontents]

end Database.Succession

/-! ## Readers of stores -/

namespace StoreSession

variable {directory : String} {loc : Location} {s : StoreSession} {id : EngineId} {n : Nat}
  {r : Reader}

/-- How an event moves the reader of a number. -/
def moved? (n : Nat) : Event → Option Move
  | .move n' _ m => if n' = n then some m else none
  | _ => none

/-- Whether a reader that is made of an open store takes a snapshot: as long as it is not dropped,
    and the store is not closed, it shows what a pointer shows, after the same moves, into the pairs
    that the store had when the reader was made. -/
def TakesSnapshot (directory : String) (s : StoreSession) : Prop :=
  let n := s.readers.length
  let made := s.step directory .iterate
  made.1 = some (.ok (.reader n)) ∧
    ∀ since : List Event, .dropReader n ∉ since → .close ∉ since → ∀ f m,
      ((made.2.run directory since).step directory (.move n f m)).1 =
        some (.ok (.sight (((Pointer.before (stored s.host directory).pairs).walk
          (since.filterMap (moved? n) ++ [m])).sight f)))

/-- No step but its own moves touches a reader that is not dropped. -/
theorem reader?_step (hr : s.reader? n = some r) (e : Event) (hkept : e ≠ .dropReader n)
    (hopen : e ≠ .close) :
    (s.step directory e).2.reader? n = some (r.walk (moved? n e).toList) := by
  -- As above, one case for each event; closing is ruled out, because it drops every reader.
  cases e with
  | close => exact absurd rfl hopen
  | openStore f =>
    simp only [step]
    split <;> exact hr
  | get f key =>
    simp only [step, onEngine]
    split <;> exact hr
  | write f batch =>
    simp only [step, onEngine]
    split <;> exact hr
  | compact f =>
    simp only [step, onEngine]
    split <;> exact hr
  | iterate =>
    simp only [step, onEngine]
    split
    · exact hr
    · exact join_getElem?_append hr _
  | move k f m =>
    simp only [step, moved?]
    by_cases hk : k = n
    · subst hk
      rw [hr, if_pos rfl]
      exact join_getElem?_set hr _
    · rw [if_neg hk]
      split
      · exact hr
      · exact (join_getElem?_set_of_ne hk _).trans hr
  | dropReader k =>
    have hk : k ≠ n := fun heq => hkept (heq ▸ rfl)
    simp only [step]
    split
    · exact hr
    · exact (join_getElem?_set_of_ne hk _).trans hr

/-- A reader that is not dropped goes where its moves lead it. -/
theorem reader?_run (hr : s.reader? n = some r) {events : List Event}
    (hkept : .dropReader n ∉ events) (hopen : .close ∉ events) :
    (s.run directory events).reader? n = some (r.walk (events.filterMap (moved? n))) := by
  have hstep : ∀ (s : StoreSession) (r : Reader) (e : Event), s.reader? n = some r →
      ¬ (e = .dropReader n ∨ e = .close) →
      (s.step directory e).2.reader? n = some (r.walk (moved? n e).toList) :=
    fun _ _ e hr hnot => reader?_step hr e (fun heq => hnot (.inl heq)) fun heq => hnot (.inr heq)
  refine reader?_foldl hstep ?_ hr
  rintro e hmem (rfl | rfl)
  · exact hkept hmem
  · exact hopen hmem

/-- A reader that is moved shows where it is then. -/
theorem step_move (hr : s.reader? n = some r) (f : Fault) (m : Move) :
    (s.step directory (.move n f m)).1 = some (.ok (.sight ((r.walk [m]).sight f))) := by
  simp only [step, hr]
  rfl

/-- A reader of an open store takes a snapshot. -/
theorem takesSnapshot_of_stands (hs : Stands directory loc s) (hid : s.engine = some id) :
    s.TakesSnapshot directory := by
  have hmade : s.step directory .iterate = (some (.ok (.reader s.readers.length)),
      { s with
        host := (Reader.make s.host id).2
        readers := s.readers ++ [some (Reader.make s.host id).1] }) := by
    simp only [step, onEngine, hid]
  refine ⟨by rw [hmade], ?_⟩
  intro since hkept hopen f m
  have hreader : (s.step directory .iterate).2.reader? s.readers.length =
      some (Reader.make s.host id).1 := by
    rw [hmade]
    unfold reader?
    rw [List.getElem?_concat_length]
    rfl
  rw [step_move (reader?_run hreader hkept hopen), ← Reader.walk_append, sight_walk_make,
    hs.contents_eq hid]

end StoreSession

/-! ## Snapshots at every moment -/

/-- At every moment of every run, readers of open namespaces take snapshots, and so do readers of an
    open store. -/
theorem takesSnapshot_run :
    (∀ root loc h tables, Database.Idle root loc h [] tables → ∀ events,
      let s := Database.Succession.run root ⟨h, none, []⟩ events
      ∀ db name, s.database = some db → db.isOpen name = true → s.TakesSnapshot root name) ∧
    (∀ directory loc h c, Ready directory loc h.disk c → Free loc h.engines → ∀ events,
      let s := StoreSession.run directory ⟨h, none, []⟩ events
      ∀ id, s.engine = some id → s.TakesSnapshot directory) := by
  constructor
  · intro root loc h tables hidle events s db name hdb hopen
    have hstart : Database.Succession.Sound root loc ⟨h, none, []⟩ tables := .idle hidle rfl
    exact Database.Succession.takesSnapshot_of_sound
      (Database.Succession.sound_run hstart events) hdb hopen
  · intro directory loc h c hready hfree events s id hid
    have hstart : StoreSession.Stands directory loc ⟨h, none, []⟩ := .idle hready hfree rfl
    exact StoreSession.takesSnapshot_of_stands (StoreSession.stands_run hstart events) hid

/-- On an empty disk: a reader shows a pair that was removed since, of a namespace that was closed
    and a database that was dropped; and so does a reader of a store that was compacted. -/
theorem takesSnapshot_run_of_empty_disk :
    let h := Host.ofDisk (Disk.empty ["data"])
    let s := Database.Succession.run "/data" ⟨h, none, []⟩ [.create .none,
      .openNamespace .none "a", .write .none "a" (.put [1] [2])]
    let s' := (s.step "/data" (.iterate "a")).2.run "/data" [.write .none "a" (.delete [1]),
      .move 0 .none .first, .closeNamespace "a", .drop]
    let t := StoreSession.run "/data/b" ⟨h, none, []⟩ [.openStore .none,
      .write .none [.put [1] [2]]]
    let t' := (t.step "/data/b" .iterate).2.run "/data/b" [.write .none [.delete [1]],
      .compact .none]
    Database.Idle "/data" ["data"] h [] (fun _ => Contents.empty) ∧
      s.database = some ⟨"/data", [("a", 1), ("", 0)], []⟩ ∧
      (s'.step "/data" (.move 0 .none (.seek []))).1 =
        some (.ok (.sight ⟨true, [1], [2], .ok ()⟩)) ∧
      Ready "/data/b" ["data", "b", "engine.redb"] h.disk Contents.empty ∧
      Free ["data", "b", "engine.redb"] h.engines ∧ t.engine = some 0 ∧
      (t'.step "/data/b" (.move 0 .none .first)).1 =
        some (.ok (.sight ⟨true, [1], [2], .ok ()⟩)) := by
  have hidle : Database.Idle "/data" ["data"] (Host.ofDisk (Disk.empty ["data"])) []
      (fun _ => Contents.empty) := Database.emptyDirectory_of_empty_disk.idle
  have hready : Ready "/data/b" ["data", "b", "engine.redb"] (Disk.empty ["data"])
      Contents.empty := ⟨rfl, rfl, .inr ⟨.inl rfl, rfl⟩⟩
  have hfree : Free ["data", "b", "engine.redb"] (Host.ofDisk (Disk.empty ["data"])).engines :=
    nofun
  have hnamespace := takesSnapshot_run.1 _ _ _ _ hidle [.create .none, .openNamespace .none "a",
    .write .none "a" (.put [1] [2])] _ "a" rfl rfl
  have hstore := takesSnapshot_run.2 _ _ _ _ hready hfree [.openStore .none,
    .write .none [.put [1] [2]]] 0 rfl
  refine ⟨hidle, rfl, ?_, hready, hfree, rfl, ?_⟩
  · exact (hnamespace.2 [.write .none "a" (.delete [1]), .move 0 .none .first,
      .closeNamespace "a", .drop] (by simp) .none (.seek [])).trans rfl
  · exact (hstore.2 [.write .none [.delete [1]], .compact .none] (by simp) (by simp) .none
      .first).trans rfl

end ReplicaStore
