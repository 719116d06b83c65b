import ReplicaStore.Proofs.Engine.Watch
import ReplicaStore.Proofs.Namespace.Session

/-! # Databases in succession

    Databases of one directory come and go, and readers stay as long as who holds them likes: they
    may outlive the namespace that they walk, and the database that they were made through. Those
    that outlived their database are *stray*. However namespaces are opened and closed, and
    readers are made and dropped, whichever calls fail: a namespace never has two live engines, a
    database can reach every engine that its own readers hold, and nothing but a stray reader ever
    keeps a namespace from being opened.

    * `Succession`: a host, a database that comes and goes, and all readers.
    * `Sound`: what a succession of databases keeps, `sound_step`: through every step.
    * `Tended`: what this means for who opens namespaces.
    * `tended_run`: engines are tended at every moment. -/

namespace ReplicaStore.Database

open Host

/-! ## Events -/

structure NamedReader where
  name : String
  reader : Reader
  /-- Whether the database that it was made through is no longer there. -/
  stray : Bool

/-- A host, the database while it is there, and a place for every reader that was ever made, in the
    order of time; the place of a reader that was dropped is empty. -/
structure Succession where
  host : Host
  database : Option Database
  readers : List (Option NamedReader)

namespace Succession

/-- What can happen to the databases of a directory, and to readers. -/
inductive Event where
  /-- A database is made; one that is there stays. -/
  | create (f : Fault)
  /-- The database is dropped. Its readers are left. -/
  | drop
  | openNamespace (f : Fault) (name : String)
  | closeNamespace (name : String)
  | get (f : Fault) (name : String) (key : Bytes)
  | write (f : Fault) (name : String) (w : Write)
  | iterate (name : String)
  /-- A reader is moved, and shows where it is then. -/
  | move (n : Nat) (f : Fault) (m : Move)
  | dropReader (n : Nat)

inductive Response where
  | done
  | value (v : Bytes)
  /-- The number of the new reader, if there is one. -/
  | reader (n : Option Nat)
  | sight (s : Sight)

abbrev Answer := Option (Except Error Response)

def write (f : Fault) (db : Database) (name : String) : Write → Action Host Unit
  | .put key value => Database.put f db name key value
  | .delete key => Database.delete f db name key

/-- The reader of a number, if it was not dropped. -/
def reader? (s : Succession) (n : Nat) : Option NamedReader :=
  s.readers[n]?.join

/-- A reader whose database is dropped. -/
def strand (r : NamedReader) : NamedReader :=
  { r with stray := true }

/-- A step on the database, if it is there. -/
def onDatabase (s : Succession) (step : Database → Answer × Succession) : Answer × Succession :=
  match s.database with
  | none => (none, s)
  | some db => step db

/-- A step: its answer, and what is there after it. -/
def step (root : String) (s : Succession) : Event → Answer × Succession
  | .create f =>
    match s.database with
    | some _ => (none, s)
    | none =>
      let (r, h) := (Database.create f root).perform s.host
      (some (r.map fun _ => .done), { s with host := h, database := r.toOption })
  | .drop => s.onDatabase fun db =>
    (some (.ok .done),
      ⟨db.close s.host, none, s.readers.map (Option.map strand)⟩)
  | .openNamespace f name => s.onDatabase fun db =>
    let (r, h) := (Database.openNamespace f db name).perform s.host
    (some (r.map fun _ => .done), { s with host := h, database := some (r.toOption.getD db) })
  | .closeNamespace name => s.onDatabase fun db =>
    let (db, h) := db.closeNamespace name s.host
    (some (.ok .done), { s with host := h, database := some db })
  | .get f name key => s.onDatabase fun db =>
    let (r, h) := (Database.get f db name key).perform s.host
    (some (r.map .value), { s with host := h })
  | .write f name w => s.onDatabase fun db =>
    let (r, h) := (write f db name w).perform s.host
    (some (r.map fun _ => .done), { s with host := h })
  | .iterate name => s.onDatabase fun db =>
    match db.newReader? name s.host with
    | none => (some (.ok (.reader none)), s)
    | some (r, h) => (some (.ok (.reader (some s.readers.length))),
        { s with host := h, readers := s.readers ++ [some ⟨name, r, false⟩] })
  | .move n f m =>
    match s.reader? n with
    | none => (none, s)
    | some r =>
      let r := { r with reader := r.reader.move fun c => c.move m }
      (some (.ok (.sight (r.reader.sight f))), { s with readers := s.readers.set n (some r) })
  | .dropReader n =>
    match s.reader? n with
    | none => (none, s)
    | some r => (some (.ok .done),
        { s with host := r.reader.drop s.host, readers := s.readers.set n none })

def run (root : String) (s : Succession) (events : List Event) : Succession :=
  events.foldl (fun s e => (s.step root e).2) s

def answers (root : String) (s : Succession) : List Event → List Answer
  | [] => []
  | e :: events => (s.step root e).1 :: answers root (s.step root e).2 events

/-! ## What was written -/

/-- The contents of all namespaces after an event, from the event and its answer: a write that was
    done is applied to the contents of its namespace. -/
def note (tables : String → Contents) : Event × Answer → String → Contents
  | (.write _ name w, some (.ok _)) => Function.update tables name ((tables name).apply w)
  | _ => tables

/-- The contents of all namespaces after a history of events and answers. -/
def told (tables : String → Contents) (history : List (Event × Answer)) : String → Contents :=
  history.foldl note tables

/-! ## Who holds what -/

/-- What a reader holds, if it is a stray one or not as is asked. -/
def holding? (stray : Bool) (r : NamedReader) : Option (String × EngineId) :=
  if r.stray = stray then some (r.name, r.reader.engine) else none

/-- What the stray readers hold, or the other ones. -/
def heldBy (stray : Bool) (readers : List (Option NamedReader)) : Holders :=
  readers.filterMap fun r? => r?.bind (holding? stray)

variable {readers : List (Option NamedReader)} {n : Nat} {r : NamedReader} {s : Succession}

theorem reader?_eq_some_iff : s.reader? n = some r ↔ s.readers[n]? = some (some r) :=
  Option.join_eq_some_iff

/-- A reader that is moved holds what it held. -/
theorem heldBy_set (hr : readers[n]? = some (some r)) (stray : Bool) (c : Cursor → Cursor) :
    (heldBy stray readers).Perm
      (heldBy stray (readers.set n (some { r with reader := r.reader.move c }))) := by
  have hperm := perm_filterMap_set hr (some { r with reader := r.reader.move c }) fun r? =>
    r?.bind (holding? stray)
  exact (List.perm_append_left_iff _).1 hperm

/-- A reader that is dropped holds nothing any more. -/
theorem heldBy_set_none (hr : readers[n]? = some (some r)) (stray : Bool) :
    (heldBy stray readers).Perm
      ((holding? stray r).toList ++ heldBy stray (readers.set n none)) :=
  perm_filterMap_set hr none fun r? => r?.bind (holding? stray)

theorem heldBy_append (readers : List (Option NamedReader)) (r : NamedReader) (stray : Bool) :
    (heldBy stray (readers ++ [some r])).Perm
      ((holding? stray r).toList ++ heldBy stray readers) := by
  have happend : heldBy stray (readers ++ [some r]) =
      heldBy stray readers ++ ((holding? stray r).toList ++ []) := by
    unfold heldBy
    rw [List.filterMap_append, filterMap_cons_eq_append]
    rfl
  rw [happend, List.append_nil]
  exact List.perm_append_comm

theorem heldBy_strand (readers : List (Option NamedReader)) :
    heldBy false (readers.map (Option.map strand)) = [] ∧
      (heldBy false readers ++ heldBy true readers).Perm
        (heldBy true (readers.map (Option.map strand))) := by
  induction readers with
  | nil => exact ⟨rfl, .refl _⟩
  | cons r? readers ih =>
    obtain ⟨hown, hperm⟩ := ih
    cases r? with
    | none => exact ⟨hown, hperm⟩
    | some r =>
      have hfalse : heldBy false (some r :: readers) =
          (holding? false r).toList ++ heldBy false readers := filterMap_cons_eq_append _ _ _
      have htrue : heldBy true (some r :: readers) =
          (holding? true r).toList ++ heldBy true readers := filterMap_cons_eq_append _ _ _
      refine ⟨hown, ?_⟩
      show List.Perm _ ((r.name, r.reader.engine) ::
        heldBy true (readers.map (Option.map strand)))
      rw [hfalse, htrue]
      unfold holding?
      -- A reader that was a stray one already stands among these; one of the database joins them.
      cases r.stray with
      | false => exact hperm.cons _
      | true => exact List.perm_middle.trans (hperm.cons _)

/-! ## Soundness -/

variable {root : String} {loc : Location} {h : Host} {db : Database} {tables : String → Contents}
  {name : String} {id : EngineId} {f : Fault}

/-- Whether all engines of namespaces are where they belong, and the disk stores contents: without a
    database, all readers are stray; while it is there, it knows the engines of its own. -/
inductive Sound (root : String) (loc : Location) : Succession → (String → Contents) → Prop
  | idle {h : Host} {readers : List (Option NamedReader)} {tables : String → Contents}
      (hi : Idle root loc h (heldBy true readers) tables) (hown : heldBy false readers = []) :
      Sound root loc ⟨h, none, readers⟩ tables
  | works {h : Host} {db : Database} {readers : List (Option NamedReader)}
      {tables : String → Contents} (hroot : db.root = root)
      (hr : Runs loc db h (heldBy false readers) (heldBy true readers) tables) :
      Sound root loc ⟨h, some db, readers⟩ tables

/-! ### Making and dropping -/

theorem sound_create (hi : Idle root loc h (heldBy true readers) tables)
    (hown : heldBy false readers = []) (f : Fault) :
    Sound root loc (step root ⟨h, none, readers⟩ (.create f)).2 tables := by
  obtain ⟨h', hcreate⟩ := hi.create f
  simp only [step]
  split at hcreate
  · obtain ⟨hperform, hi'⟩ := hcreate
    rw [hperform]
    exact .idle hi' hown
  · obtain ⟨db, hperform, hroot, -, hr⟩ := hcreate
    rw [← hown] at hr
    rw [hperform]
    exact .works hroot hr

theorem sound_drop (hroot : db.root = root)
    (hr : Runs loc db h (heldBy false readers) (heldBy true readers) tables) :
    Sound root loc (step root ⟨h, some db, readers⟩ .drop).2 tables := by
  obtain ⟨hown, hperm⟩ := heldBy_strand readers
  -- Without their database its readers are stray ones, and they keep their engines.
  have hi := hr.close.perm hperm
  rw [hroot] at hi
  exact .idle hi hown

/-! ### Calls -/

theorem sound_openNamespace (hroot : db.root = root)
    (hr : Runs loc db h (heldBy false readers) (heldBy true readers) tables) (f : Fault)
    (name : String) :
    Sound root loc (step root ⟨h, some db, readers⟩ (.openNamespace f name)).2 tables := by
  obtain ⟨h', hopen⟩ := hr.openNamespace f name
  simp only [step, onDatabase]
  split at hopen
  · obtain ⟨hperform, hr'⟩ := hopen
    rw [hperform]
    exact .works hroot hr'
  · obtain ⟨db', hperform, hroot', -, hr'⟩ := hopen
    rw [hperform]
    exact .works (hroot'.trans hroot) hr'

theorem sound_closeNamespace (hroot : db.root = root)
    (hr : Runs loc db h (heldBy false readers) (heldBy true readers) tables) (name : String) :
    Sound root loc (step root ⟨h, some db, readers⟩ (.closeNamespace name)).2 tables := by
  obtain ⟨db', h', hclose, hmanages, hroot', hdisk, -⟩ := hr.manages.closeNamespace name
  have hbelow := hr.below
  rw [← hroot', ← hdisk] at hbelow
  simp only [step, onDatabase, hclose]
  exact .works (hroot'.trans hroot) ⟨hmanages, hbelow⟩

/-- Looking up a key of a namespace that is open on an engine. -/
theorem perform_get_of_engineOf? (hid : db.engineOf? name = some id) (f : Fault) (key : Bytes)
    (h : Host) :
    (Database.get f db name key).perform h =
      (if f.fails (.get key) then .error (.engine (Call.get key).failure)
        else match (h.contents id).get? key with
          | some value => .ok value
          | none => .error (.missingKey key name), h) := by
  have hget := Host.perform_get f id key h
  unfold Database.get
  rw [Action.perform_bind_of_ok (perform_engineOf hid h)]
  cases hfails : f.fails (.get key) with
  | true =>
    rw [hfails, if_pos rfl] at hget
    exact Action.perform_bind_of_error hget
  | false =>
    rw [hfails, if_neg Bool.false_ne_true] at hget
    rw [Action.perform_bind_of_ok hget]
    cases (h.contents id).get? key with
    | none => rfl
    | some value => rfl

/-- Looking up a key changes nothing. -/
theorem perform_get_snd (f : Fault) (db : Database) (name : String) (key : Bytes) (h : Host) :
    ((Database.get f db name key).perform h).2 = h := by
  cases hid : db.engineOf? name with
  | some id => rw [perform_get_of_engineOf? hid]
  | none =>
    unfold Database.get
    rw [Action.perform_bind_of_error (perform_engineOf_of_none hid h)]

theorem write_eq (f : Fault) (db : Database) (name : String) (w : Write) :
    write f db name w = (Action.lift (db.engineOf name) >>= fun id => Host.write f id [w]) := by
  cases w <;> rfl

/-- Writing to a namespace that is open on an engine. -/
theorem perform_write_of_engineOf? (hid : db.engineOf? name = some id) (f : Fault) (w : Write)
    (h : Host) :
    (write f db name w).perform h =
      if f.fails (.write [w]) then (.error (.engine (Call.write [w]).failure), h)
      else (.ok (), h.setContents id ((h.contents id).apply w)) := by
  rw [write_eq, Action.perform_bind_of_ok (perform_engineOf hid h)]
  exact Host.perform_write f id [w] h

/-- Nothing is written to a namespace that is not open. -/
theorem perform_write_of_closed (hid : db.engineOf? name = none) (f : Fault) (w : Write)
    (h : Host) : (write f db name w).perform h = (.error (.closedNamespace name), h) := by
  rw [write_eq, Action.perform_bind_of_error (perform_engineOf_of_none hid h)]

theorem sound_write (hroot : db.root = root)
    (hr : Runs loc db h (heldBy false readers) (heldBy true readers) tables) (f : Fault)
    (name : String) (w : Write) :
    Sound root loc (step root ⟨h, some db, readers⟩ (.write f name w)).2
      (note tables
        (.write f name w, (step root ⟨h, some db, readers⟩ (.write f name w)).1)) := by
  simp only [step, onDatabase]
  -- Only a write that was done is noted, and only that one changes contents.
  cases hid : db.engineOf? name with
  | none =>
    rw [perform_write_of_closed hid]
    exact .works hroot hr
  | some id =>
    rw [perform_write_of_engineOf? hid]
    cases hfails : f.fails (.write [w]) with
    | true => exact .works hroot hr
    | false =>
      have hmem := mem_of_lookup hid
      rw [hr.contents_eq hmem]
      exact .works hroot (hr.setContents hmem _)

/-! ### Readers -/

theorem sound_iterate (hroot : db.root = root)
    (hr : Runs loc db h (heldBy false readers) (heldBy true readers) tables) (name : String) :
    Sound root loc (step root ⟨h, some db, readers⟩ (.iterate name)).2 tables := by
  simp only [step, onDatabase, newReader?]
  cases hid : db.engineOf? name with
  | none => exact .works hroot hr
  | some id =>
    have hr' : Runs loc db (Reader.make h id).2 ((name, id) :: heldBy false readers)
        (heldBy true readers) tables := ⟨hr.manages.addReader (mem_of_lookup hid), hr.below⟩
    -- The new reader is one of the database, so it is counted among these only.
    have hown := heldBy_append readers ⟨name, (Reader.make h id).1, false⟩ false
    have hstray := heldBy_append readers ⟨name, (Reader.make h id).1, false⟩ true
    exact .works hroot (hr'.perm hown.symm hstray.symm)

theorem sound_move (hs : Sound root loc s tables) (n : Nat) (f : Fault) (m : Move) :
    Sound root loc (s.step root (.move n f m)).2 tables := by
  simp only [step]
  cases hr : s.reader? n with
  | none => exact hs
  | some r =>
    have hplace := reader?_eq_some_iff.1 hr
    cases hs with
    | idle hi hown =>
      have hperm := heldBy_set hplace false fun c => c.move m
      rw [hown] at hperm
      exact .idle (hi.perm (heldBy_set hplace true _)) hperm.nil_eq.symm
    | works hroot hruns =>
      exact .works hroot (hruns.perm (heldBy_set hplace false _) (heldBy_set hplace true _))

theorem sound_dropReader (hs : Sound root loc s tables) (n : Nat) :
    Sound root loc (s.step root (.dropReader n)).2 tables := by
  simp only [step]
  cases hr : s.reader? n with
  | none => exact hs
  | some r =>
    have hplace := reader?_eq_some_iff.1 hr
    have hfalse := heldBy_set_none hplace false
    have htrue := heldBy_set_none hplace true
    unfold holding? at hfalse htrue
    cases hs with
    | idle hi hown =>
      -- Without a database, the reader is a stray one.
      cases hstray : r.stray with
      | false =>
        rw [hstray, if_pos rfl, hown] at hfalse
        cases hfalse.nil_eq
      | true =>
        rw [hstray, if_neg (by decide), hown] at hfalse
        rw [hstray, if_pos rfl] at htrue
        exact .idle (hi.perm htrue).dropStray hfalse.nil_eq.symm
    | works hroot hruns =>
      have hmanages := (hruns.perm hfalse htrue).manages
      refine .works hroot ⟨?_, hruns.below⟩
      -- The reader is counted with its own kind, and leaves that count alone.
      cases hstray : r.stray with
      | false =>
        rw [hstray, if_pos rfl, if_neg (by decide)] at hmanages
        exact hmanages.dropReader
      | true =>
        rw [hstray, if_pos rfl, if_neg (by decide)] at hmanages
        exact hmanages.dropStray

/-! ### Steps and runs -/

/-- Every step keeps a succession sound, with the contents that its answer tells. -/
theorem sound_step (hs : Sound root loc s tables) (e : Event) :
    Sound root loc (s.step root e).2 (note tables (e, (s.step root e).1)) := by
  cases hs with
  | idle hi hown =>
    have hs : Sound root loc ⟨_, none, _⟩ _ := .idle hi hown
    cases e with
    | create f => exact sound_create hi hown f
    | move n f m => exact sound_move hs n f m
    | dropReader n => exact sound_dropReader hs n
    -- Everything else is asked of the database, and there is none.
    | _ => exact hs
  | works hroot hr =>
    have hs : Sound root loc ⟨_, some _, _⟩ _ := .works hroot hr
    cases e with
    | create f => exact hs
    | drop => exact sound_drop hroot hr
    | openNamespace f name => exact sound_openNamespace hroot hr f name
    | closeNamespace name => exact sound_closeNamespace hroot hr name
    | get f name key =>
      simp only [step, onDatabase, note, perform_get_snd]
      exact hs
    | write f name w => exact sound_write hroot hr f name w
    | iterate name => exact sound_iterate hroot hr name
    | move n f m => exact sound_move hs n f m
    | dropReader n => exact sound_dropReader hs n

/-- Every run keeps a succession sound, with the contents that its history tells. -/
theorem sound_run (hs : Sound root loc s tables) (events : List Event) :
    Sound root loc (s.run root events) (told tables (events.zip (s.answers root events))) := by
  -- By induction on the run, with soundness as the invariant.
  induction events generalizing s tables with
  | nil => exact hs
  | cons e events ih => exact ih (sound_step hs e)

/-! ## Tended engines -/

/-- Whether there is a reader of a namespace on an engine, a stray one or not as is asked. -/
def IsRead (s : Succession) (stray : Bool) (name : String) (id : EngineId) : Prop :=
  ∃ r, some r ∈ s.readers ∧ r.stray = stray ∧ r.name = name ∧ r.reader.engine = id

/-- Whether a database shows contents for an open namespace. -/
def Shows (db : Database) (h : Host) (name : String) (c : Contents) : Prop :=
  ∀ f key, f.fails (.get key) = false → (Database.get f db name key).perform h =
    (match c.get? key with
      | some value => .ok value
      | none => .error (.missingKey key name), h)

/-- What a succession of databases promises of the engines of its namespaces. -/
structure Tended (root : String) (loc : Location) (s : Succession) (tables : String → Contents) :
    Prop where
  /-- An engine of a namespace is live exactly as long as the namespace is open on it, or a reader
      walks it. -/
  live : ∀ name id, (∃ e ∈ s.host.engines, e.id = id ∧ e.location = place loc name) ↔
    (∃ db, s.database = some db ∧ (name, id) ∈ db.opened) ∨ s.IsRead false name id ∨
      s.IsRead true name id
  /-- No namespace has two live engines. -/
  alone : ∀ name, ∀ e ∈ s.host.engines, e.location = place loc name →
    ∀ e' ∈ s.host.engines, e'.location = place loc name → e' = e
  /-- The database can reach an engine that a namespace is open on or that its readers walk: either
      the namespace is open on it, or it is remembered as that of the closed namespace. -/
  reachable : ∀ db, s.database = some db → ∀ name id,
    (name, id) ∈ db.opened ∨ s.IsRead false name id →
      db.engineOf? name = some id ∨ db.isOpen name = false ∧ db.liveClosed? s.host name = some id
  /-- Nothing is remembered of an open namespace, let alone an engine that is live. -/
  forgotten : ∀ db, s.database = some db → ∀ name id, db.isOpen name = true →
    (name, id) ∉ db.closed
  /-- A namespace that is read through the database can be opened whatever fails. It is open on the
      engine that is read then, shows what was written to it, and can be written to. -/
  reopened : ∀ db, s.database = some db → ∀ name id, isValidName name = true →
    s.IsRead false name id → ∀ f, ∃ db' h',
      (Database.openNamespace f db name).perform s.host = (.ok db', h') ∧
        db'.engineOf? name = some id ∧ Shows db' h' name (tables name) ∧
        ∀ f' w, f'.fails (.write [w]) = false → ∃ h'',
          (write f' db' name w).perform h' = (.ok (), h'') ∧
            Shows db' h'' name ((tables name).apply w)
  /-- A namespace is found locked exactly if its engine had to be opened, and nothing but a stray
      reader stood in the way. -/
  locked : ∀ db, s.database = some db → ∀ f name,
    ((Database.openNamespace f db name).perform s.host).1 = .error (.engine .locked) ↔
      isValidName name = true ∧ db.isOpen name = false ∧ (∀ id, ¬ s.IsRead false name id) ∧
        opening root f name = .ok () ∧ ∃ id, s.IsRead true name id
  /-- So it is for the namespace that a new database opens. -/
  lockedNew : s.database = none → ∀ f,
    ((Database.create f root).perform s.host).1 = .error (.engine .locked) ↔
      opening root f defaultNamespace = .ok () ∧ ∃ id, s.IsRead true defaultNamespace id

theorem mem_heldBy_iff {stray : Bool} :
    (name, id) ∈ heldBy stray s.readers ↔ s.IsRead stray name id := by
  unfold heldBy IsRead
  rw [List.mem_filterMap]
  constructor
  · rintro ⟨r?, hmem, hheld⟩
    obtain ⟨r, rfl, hholding⟩ := Option.bind_eq_some_iff.1 hheld
    unfold holding? at hholding
    split at hholding
    · rename_i hstray
      cases hholding
      exact ⟨r, hmem, hstray, rfl, rfl⟩
    · cases hholding
  · rintro ⟨r, hmem, hstray, rfl, rfl⟩
    exact ⟨some r, hmem, if_pos hstray⟩

theorem mem_map_heldBy_iff {stray : Bool} :
    name ∈ (heldBy stray s.readers).map Prod.fst ↔ ∃ id, s.IsRead stray name id := by
  rw [mem_map_fst_iff]
  exact exists_congr fun id => mem_heldBy_iff

/-- The engines that are held are all engines that are live. -/
theorem live_of_staffed {opened : Holders}
    (hs : Staffed loc s.host opened (heldBy false s.readers ++ heldBy true s.readers)) :
    (∃ e ∈ s.host.engines, e.id = id ∧ e.location = place loc name) ↔
      (name, id) ∈ opened ∨ s.IsRead false name id ∨ s.IsRead true name id := by
  rw [← mem_heldBy_iff, ← mem_heldBy_iff, ← List.mem_append]
  constructor
  · rintro ⟨e, hmem, rfl, hplace⟩
    exact hs.held_of_place hmem hplace
  · exact hs.live name id

/-- What an open namespace shows is what the tables have for it. -/
theorem shows_of_runs {held strays : Holders} (hr : Runs loc db h held strays tables)
    (hid : db.engineOf? name = some id) : Shows db h name (tables name) := by
  intro f key hfails
  rw [perform_get_of_engineOf? hid, hfails, if_neg Bool.false_ne_true,
    hr.contents_eq (mem_of_lookup hid)]

/-- Opening a namespace finds its engine locked exactly if that was foretold. -/
theorem openNamespace_locked_iff {held strays : Holders}
    (hr : Runs loc db h held strays tables) :
    ((Database.openNamespace f db name).perform h).1 = .error (.engine .locked) ↔
      isValidName name = true ∧ db.isOpen name = false ∧ name ∉ held.map Prod.fst ∧
        opening db.root f name = .ok () ∧ name ∈ strays.map Prod.fst := by
  obtain ⟨h', hopen⟩ := hr.openNamespace f name
  have hlocked := outcomeBeside_eq_locked_iff db.root f name (db.isOpen name)
    (decide (name ∈ held.map Prod.fst)) (decide (name ∈ strays.map Prod.fst))
  rw [decide_eq_false_iff_not, decide_eq_true_eq] at hlocked
  rw [← hlocked]
  -- Both sides tell what the outcome is that was foretold.
  split at hopen
  · rename_i e houtcome
    rw [hopen.1, houtcome, Except.error.injEq, Except.error.injEq]
  · rename_i houtcome
    obtain ⟨db', hperform, -⟩ := hopen
    rw [hperform, houtcome]
    exact ⟨nofun, nofun⟩

/-- The same for the namespace of a new database. -/
theorem create_locked_iff {strays : Holders} (hi : Idle root loc h strays tables) :
    ((Database.create f root).perform h).1 = .error (.engine .locked) ↔
      opening root f defaultNamespace = .ok () ∧ defaultNamespace ∈ strays.map Prod.fst := by
  obtain ⟨h', hcreate⟩ := hi.create f
  have hlocked := outcomeBeside_eq_locked_iff root f defaultNamespace false false
    (decide (defaultNamespace ∈ strays.map Prod.fst))
  have hvalid : isValidName defaultNamespace = true := rfl
  simp only [hvalid, true_and, decide_eq_true_eq] at hlocked
  rw [← hlocked]
  split at hcreate
  · rename_i e houtcome
    rw [hcreate.1, houtcome, Except.error.injEq, Except.error.injEq]
  · rename_i houtcome
    obtain ⟨db', hperform, -⟩ := hcreate
    rw [hperform, houtcome]
    exact ⟨nofun, nofun⟩

/-- A namespace that is read through a database is opened on the engine that is read, whatever
    fails. -/
theorem openNamespace_of_read {held strays : Holders} (hr : Runs loc db h held strays tables)
    (hvalid : isValidName name = true) (hread : (name, id) ∈ held) (f : Fault) :
    ∃ db' h', (Database.openNamespace f db name).perform h = (.ok db', h') ∧
      db'.engineOf? name = some id ∧ Runs loc db' h' held strays tables := by
  obtain ⟨h', hopen⟩ := hr.openNamespace f name
  have hmem : decide (name ∈ held.map Prod.fst) = true :=
    decide_eq_true (mem_map_fst_iff.2 ⟨id, hread⟩)
  have houtcome : outcomeBeside db.root f name (db.isOpen name)
      (decide (name ∈ held.map Prod.fst)) (decide (name ∈ strays.map Prod.fst)) = .ok () := by
    simp only [outcomeBeside, outcome, hvalid, hmem, Bool.true_eq_false, if_false, Bool.or_true,
      if_true, Bool.not_true, Bool.and_false, Bool.false_eq_true]
  rw [houtcome] at hopen
  obtain ⟨db', hperform, -, hisOpen, hr'⟩ := hopen
  have hopened : db'.isOpen name = true := by
    rw [hisOpen, decide_eq_true rfl, Bool.true_or]
  obtain ⟨id', hid, hmem'⟩ := engineOf?_of_isOpen hopened
  -- Whoever has the namespace open has it open on the engine that its readers walk.
  have hsame := hr'.manages.staffed.id_unique (.inl hmem')
    (.inr (List.mem_append_left strays hread))
  rw [← hsame] at hid
  exact ⟨db', h', hperform, hid, hr'⟩

/-- The database of a sound succession can reach the engines that are held through it. -/
theorem reachable_of_manages {held strays : Holders} (hm : Manages loc db h held strays)
    (hheld : (name, id) ∈ db.opened ∨ (name, id) ∈ held) :
    db.engineOf? name = some id ∨ db.isOpen name = false ∧ db.liveClosed? h name = some id := by
  cases hopen : db.isOpen name with
  | true =>
    obtain ⟨id', hid, hmem⟩ := engineOf?_of_isOpen hopen
    have hheld' : (name, id) ∈ db.opened ∨ (name, id) ∈ held ++ strays :=
      hheld.imp_right (List.mem_append_left strays)
    rw [hm.staffed.id_unique hheld' (.inl hmem)] at hid
    exact .inl hid
  | false =>
    rcases hheld with hopened | hread
    · exact absurd hopened (not_mem_opened hopen)
    · exact .inr ⟨rfl, (hm.liveClosed?_eq_some_iff hopen).2 hread⟩

/-- Without a database, a namespace can be locked for the next one only. -/
theorem tended_of_idle (hi : Idle root loc h (heldBy true readers) tables)
    (hown : heldBy false readers = []) : Tended root loc ⟨h, none, readers⟩ tables := by
  have hstaffed : Staffed loc h [] (heldBy false readers ++ heldBy true readers) := by
    rw [hown]
    exact hi.staffed
  refine ⟨?_, ?_, nofun, nofun, nofun, nofun, ?_⟩
  · intro name id
    rw [live_of_staffed (s := ⟨h, none, readers⟩) hstaffed]
    refine or_congr_left ⟨nofun, ?_⟩
    rintro ⟨db, hdb, -⟩
    cases hdb
  · intro name e hmem hplace e' hmem' hplace'
    exact hstaffed.alone e hmem name hplace e' hmem' (.inr (hplace'.trans hplace.symm))
  · intro _ f
    rw [create_locked_iff hi, mem_map_heldBy_iff (s := ⟨h, none, readers⟩)]

/-- A database that knows its engines opens again what its readers walk. -/
theorem tended_of_runs (hroot : db.root = root)
    (hr : Runs loc db h (heldBy false readers) (heldBy true readers) tables) :
    Tended root loc ⟨h, some db, readers⟩ tables := by
  have hstaffed := hr.manages.staffed
  refine ⟨?_, ?_, ?_, ?_, ?_, ?_, nofun⟩
  · intro name id
    rw [live_of_staffed (s := ⟨h, some db, readers⟩) hstaffed]
    refine or_congr_left ⟨fun hmem => ⟨db, rfl, hmem⟩, ?_⟩
    rintro ⟨db', ⟨⟩, hmem⟩
    exact hmem
  · intro name e hmem hplace e' hmem' hplace'
    exact hstaffed.alone e hmem name hplace e' hmem' (.inr (hplace'.trans hplace.symm))
  · rintro db' ⟨⟩ name id hheld
    exact reachable_of_manages hr.manages (hheld.imp_right mem_heldBy_iff.2)
  · rintro db' ⟨⟩ name id hopen hentry
    rw [hr.manages.forgotten name id hentry] at hopen
    cases hopen
  · rintro db' ⟨⟩ name id hvalid hread f
    obtain ⟨db', h', hperform, hid, hr'⟩ :=
      openNamespace_of_read hr hvalid (mem_heldBy_iff.2 hread) f
    refine ⟨db', h', hperform, hid, shows_of_runs hr' hid, ?_⟩
    intro f' w hfails
    have hmem := mem_of_lookup hid
    have hshows := shows_of_runs (hr'.setContents hmem ((tables name).apply w)) hid
    rw [Function.update_self] at hshows
    refine ⟨_, ?_, hshows⟩
    rw [perform_write_of_engineOf? hid, hfails, if_neg Bool.false_ne_true, hr'.contents_eq hmem]
  · rintro db' ⟨⟩ f name
    rw [openNamespace_locked_iff hr, mem_map_heldBy_iff (s := ⟨h, some db, readers⟩),
      mem_map_heldBy_iff (s := ⟨h, some db, readers⟩), hroot, not_exists]

theorem Sound.tended (hs : Sound root loc s tables) : Tended root loc s tables := by
  cases hs with
  | idle hi hown => exact tended_of_idle hi hown
  | works hroot hr => exact tended_of_runs hroot hr

/-- In a directory whose engines nobody holds at first, engines are tended at every moment, whatever
    is done to its databases and readers and whichever calls fail. -/
theorem tended_run {root : String} {loc : Location} {h : Host} {tables : String → Contents}
    (hidle : Idle root loc h [] tables) (events : List Event) :
    let start : Succession := ⟨h, none, []⟩
    Tended root loc (start.run root events)
      (told tables (events.zip (start.answers root events))) := by
  intro start
  have hstart : Sound root loc start tables := .idle hidle rfl
  exact (sound_run hstart events).tended

/-- On an empty disk: a namespace is opened again while it is read, though every call fails; and it
    is found locked by the next database until the reader, which outlived its own, is dropped. -/
theorem tended_run_of_empty_disk :
    let start : Succession := ⟨Host.ofDisk (Disk.empty ["data"]), none, []⟩
    let events : List Event := [.create .none, .openNamespace .none "a",
      .write .none "a" (.put [1] [2]), .iterate "a", .closeNamespace "a",
      .openNamespace ⟨fun _ => true⟩ "a", .get .none "a" [1], .drop, .create .none,
      .openNamespace .none "a", .dropReader 0, .openNamespace .none "a", .get .none "a" [1]]
    Idle "/data" ["data"] start.host [] (fun _ => Contents.empty) ∧
      start.answers "/data" events =
        [some (.ok .done), some (.ok .done), some (.ok .done), some (.ok (.reader (some 0))),
          some (.ok .done), some (.ok .done), some (.ok (.value [2])), some (.ok .done),
          some (.ok .done), some (.error (.engine .locked)), some (.ok .done), some (.ok .done),
          some (.ok (.value [2]))] ∧
      Tended "/data" ["data"] (start.run "/data" events)
        (told (fun _ => Contents.empty) (events.zip (start.answers "/data" events))) := by
  have hidle : Idle "/data" ["data"] (Host.ofDisk (Disk.empty ["data"])) []
      (fun _ => Contents.empty) := emptyDirectory_of_empty_disk.idle
  exact ⟨hidle, rfl, tended_run hidle _⟩

end Succession

end ReplicaStore.Database
