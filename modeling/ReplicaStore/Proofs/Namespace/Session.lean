import Mathlib.Data.List.Perm.Basic
import ReplicaStore.Proofs.Namespace.Table

/-! # Sessions of a database

    A session takes the steps of a database on a host, through the definitions that run. It is
    answered as an ideal session is, which takes the same steps on a table: however namespaces are
    opened and closed, whatever readers are left, and whichever calls fail, contents are where their
    names say.

    * `Session`: a host with a database and readers.
    * `step_refines`: a step is answered as the ideal one is.
    * `refines_tables`: no observer can tell a database from a table. -/

namespace ReplicaStore.Database

open Host Disk

/-! ## Sessions -/

/-- A host, the database while it is there, and its readers with the names of what they read. -/
structure Session where
  host : Host
  database : Option Database
  readers : List (String × Reader)

namespace Session

/-- The host without the readers and the database. -/
def dropped (s : Session) (db : Database) : Host :=
  db.close (s.readers.foldl (fun h r => r.2.drop h) s.host)

/-- A step on the database, if it is there. -/
def onDatabase (s : Session) (step : Database → Answer × Session) : Answer × Session :=
  match s.database with
  | none => (none, s)
  | some db => step db

/-- A step: its answer, and the session after it. -/
def step (root : String) (s : Session) : Label → Answer × Session
  | .create f =>
    match s.database with
    | some _ => (none, s)
    | none =>
      let (r, h) := (Database.create f root).perform s.host
      (some (r.map fun _ => .done), { s with host := h, database := r.toOption })
  | .drop => s.onDatabase fun db => (some (.ok .done), ⟨s.dropped db, none, []⟩)
  | .openNamespace f name => s.onDatabase fun db =>
    let (r, h) := (Database.openNamespace f db name).perform s.host
    (some (r.map fun _ => .done), { s with host := h, database := some (r.toOption.getD db) })
  | .closeNamespace name => s.onDatabase fun db =>
    let (db, h) := db.closeNamespace name s.host
    (some (.ok .done), { s with host := h, database := some db })
  | .namespaces => s.onDatabase fun db => (some (.ok (.names db.namespaces)), s)
  | .get f name key => s.onDatabase fun db =>
    let (r, h) := (Database.get f db name key).perform s.host
    (some (r.map .value), { s with host := h })
  | .put f name key value => s.onDatabase fun db =>
    let (r, h) := (Database.put f db name key value).perform s.host
    (some (r.map fun _ => .done), { s with host := h })
  | .delete f name key => s.onDatabase fun db =>
    let (r, h) := (Database.delete f db name key).perform s.host
    (some (r.map fun _ => .done), { s with host := h })
  | .iterate name => s.onDatabase fun db =>
    match db.newReader? name s.host with
    | none => (some (.ok (.reader false)), s)
    | some (r, h) =>
      (some (.ok (.reader true)), { s with host := h, readers := (name, r) :: s.readers })
  | .move reader m =>
    match s.readers[reader]? with
    | none => (none, s)
    | some (name, r) =>
      let r := r.move fun c => c.move m
      (some (.ok (.pair r.cursor.current)), { s with readers := s.readers.set reader (name, r) })
  | .dropReader reader =>
    match s.readers[reader]? with
    | none => (none, s)
    | some (_, r) =>
      (some (.ok .done), { s with host := r.drop s.host, readers := s.readers.eraseIdx reader })

def run (root : String) (s : Session) (labels : List Label) : Session :=
  labels.foldl (fun s label => (s.step root label).2) s

def answers (root : String) (s : Session) : List Label → List Answer
  | [] => []
  | label :: labels => (s.step root label).1 :: answers root (s.step root label).2 labels

end Session

/-! ## Names in order -/

/-- The names of the open namespaces are what an ascending list of them is. -/
theorem namespaces_eq {db : Database} {names : List String} (hdb : (db.opened.map Prod.fst).Nodup)
    (hnames : names.Pairwise (· < ·)) (hmem : ∀ name, name ∈ names ↔ db.isOpen name = true) :
    db.namespaces = names := by
  have hperm : db.namespaces.Perm names := by
    refine (List.mergeSort_perm _ _).trans ?_
    apply (List.perm_ext_iff_of_nodup hdb (hnames.imp fun hlt => ne_of_lt hlt)).2
    intro name
    rw [hmem, isOpen_iff]
  -- Sorting by the order of the names leaves the names ascending, and ascending lists of the same
  -- names are one list.
  have hsorted : db.namespaces.Pairwise (fun a b => decide (¬ b < a) = true) := by
    apply List.pairwise_mergeSort
    · intro a b c hab hbc
      simp only [decide_eq_true_eq, not_lt] at hab hbc ⊢
      exact le_trans hab hbc
    · intro a b
      simp only [Bool.or_eq_true, decide_eq_true_eq, not_lt]
      exact le_total a b
  have hsorted' : db.namespaces.Pairwise (· ≤ ·) :=
    hsorted.imp fun hle => not_lt.1 (of_decide_eq_true hle)
  exact hperm.eq_of_pairwise (fun _ _ _ _ hab hba => le_antisymm hab hba) hsorted'
    (hnames.imp fun hlt => le_of_lt hlt)

/-! ## What a step needs -/

/-- Those who hold engines through readers. -/
def holders (readers : List (String × Reader)) : Holders :=
  readers.map fun r => (r.1, r.2.engine)

/-- Whether a reader of a session walks where one of an ideal session walks. -/
def Walks (r : String × Reader) (p : String × Pointer) : Prop :=
  r.1 = p.1 ∧ r.2.cursor.Follows p.2

/-- Whether a database that is there works on the tables. -/
structure Works (root : String) (loc : Location) (h : Host) (db : Database)
    (readers : List (String × Reader)) (tables : String → Contents) (names : List String)
    (pointers : List (String × Pointer)) : Prop where
  root : db.root = root
  runs : Runs loc db h (holders readers) [] tables
  ascending : names.Pairwise (· < ·)
  isOpen : ∀ name, name ∈ names ↔ db.isOpen name = true
  walks : List.Forall₂ Walks readers pointers

/-- Whether a session does what an ideal one does. -/
inductive Refines (root : String) (loc : Location) : Session → Ideal → Prop
  | idle {h : Host} {tables : String → Contents} (hi : Idle root loc h [] tables) :
      Refines root loc ⟨h, none, []⟩ ⟨tables, none, []⟩
  | works {h : Host} {db : Database} {readers : List (String × Reader)}
      {tables : String → Contents} {names : List String} {pointers : List (String × Pointer)}
      (hw : Works root loc h db readers tables names pointers) :
      Refines root loc ⟨h, some db, readers⟩ ⟨tables, some names, pointers⟩

variable {root : String} {loc : Location} {h : Host} {db : Database}
  {readers : List (String × Reader)} {tables : String → Contents} {names : List String}
  {pointers : List (String × Pointer)} {f : Fault} {name : String} {id : EngineId}

/-! ## Making and dropping -/

/-- A database that is made works on the tables, with one namespace open. -/
theorem Idle.works_create (hi : Idle root loc h [] tables) (f : Fault) :
    ∃ h', match outcome root f defaultNamespace false false with
      | .error e => (Database.create f root).perform h = (.error e, h') ∧ Idle root loc h' [] tables
      | .ok () => ∃ db, (Database.create f root).perform h = (.ok db, h') ∧
          Works root loc h' db [] tables [defaultNamespace] [] := by
  obtain ⟨h', hcreate⟩ := hi.create f
  have hflags : outcomeBeside root f defaultNamespace false false
      (decide (defaultNamespace ∈ ([] : Holders).map Prod.fst)) =
      outcome root f defaultNamespace false false := outcomeBeside_false root f _ _ _
  rw [hflags] at hcreate
  refine ⟨h', ?_⟩
  cases houtcome : outcome root f defaultNamespace false false with
  | error e =>
    rw [houtcome] at hcreate
    exact hcreate
  | ok u =>
    rw [houtcome] at hcreate
    obtain ⟨db, hperform, hroot, hisOpen, hruns⟩ := hcreate
    refine ⟨db, hperform, hroot, hruns, List.pairwise_singleton _ _, ?_, .nil⟩
    intro name
    rw [hisOpen, List.mem_singleton, decide_eq_true_eq]

/-- Dropping every reader leaves a database that nobody reads. -/
theorem Runs.dropReaders (hr : Runs loc db h (holders readers) [] tables) :
    Runs loc db (readers.foldl (fun h r => r.2.drop h) h) [] [] tables := by
  -- One reader after the other, from the front.
  induction readers generalizing h with
  | nil => exact hr
  | cons r readers ih => exact ih ⟨hr.manages.dropReader, hr.below⟩

/-! ## Calls -/

theorem perform_engineOf (hid : db.engineOf? name = some id) (h : Host) :
    (Action.lift (db.engineOf name) : Action Host EngineId).perform h = (.ok id, h) := by
  simp only [Database.engineOf, hid]
  rfl

theorem perform_engineOf_of_none (hid : db.engineOf? name = none) (h : Host) :
    (Action.lift (db.engineOf name) : Action Host EngineId).perform h =
      (.error (.closedNamespace name), h) := by
  simp only [Database.engineOf, hid]
  rfl

/-! ## Reading and writing -/

theorem Works.engineOf (hw : Works root loc h db readers tables names pointers)
    (hmem : name ∈ names) : ∃ id, (name, id) ∈ db.opened ∧
      (Action.lift (db.engineOf name) : Action Host EngineId).perform h = (.ok id, h) := by
  obtain ⟨id, hid, hopened⟩ := engineOf?_of_isOpen ((hw.isOpen name).1 hmem)
  exact ⟨id, hopened, perform_engineOf hid h⟩

theorem Works.engineOf_of_not_mem (hw : Works root loc h db readers tables names pointers)
    (hnot : name ∉ names) :
    (Action.lift (db.engineOf name) : Action Host EngineId).perform h =
      (.error (.closedNamespace name), h) := by
  have hclosed : db.isOpen name = false := by
    rw [Bool.eq_false_iff]
    intro hopen
    exact hnot ((hw.isOpen name).2 hopen)
  exact perform_engineOf_of_none (engineOf?_of_not_isOpen hclosed) h

/-- What is asked of a namespace is asked of its table, if it is open. -/
theorem Works.onTable {α : Type} {action : EngineId → Action Host α} {reply : α → Reply}
    {step : Contents → Except Error Reply × Contents}
    (hw : Works root loc h db readers tables names pointers)
    (hopened : ∀ id, (name, id) ∈ db.opened → ∃ answer h', (action id).perform h = (answer, h') ∧
      answer.map reply = (step (tables name)).1 ∧
      Runs loc db h' (holders readers) [] (Function.update tables name (step (tables name)).2)) :
    ∃ answer h', (Action.lift (db.engineOf name) >>= action).perform h = (answer, h') ∧
      some (answer.map reply) = (Ideal.onTable ⟨tables, some names, pointers⟩ name step).1 ∧
      Refines root loc ⟨h', some db, readers⟩
        (Ideal.onTable ⟨tables, some names, pointers⟩ name step).2 := by
  simp only [Ideal.onTable, Ideal.onNames]
  -- An open namespace asks its engine, and a closed one fails for both.
  by_cases hmem : name ∈ names
  · obtain ⟨id, hid, hengine⟩ := hw.engineOf hmem
    obtain ⟨answer, h', hperform, hanswer, hruns⟩ := hopened id hid
    rw [if_pos hmem, Action.perform_bind_of_ok hengine]
    exact ⟨answer, h', hperform, congrArg some hanswer,
      .works ⟨hw.root, hruns, hw.ascending, hw.isOpen, hw.walks⟩⟩
  · rw [if_neg hmem, Action.perform_bind_of_error (hw.engineOf_of_not_mem hmem)]
    exact ⟨_, h, rfl, rfl, .works hw⟩

/-- Looking up a key answers from the table. -/
theorem Works.get (hw : Works root loc h db readers tables names pointers) (f : Fault)
    (name : String) (key : Bytes) :
    ∃ answer h', (Database.get f db name key).perform h = (answer, h') ∧
      some (answer.map Reply.value) =
        (Ideal.onTable ⟨tables, some names, pointers⟩ name (Ideal.lookup f name key)).1 ∧
      Refines root loc ⟨h', some db, readers⟩
        (Ideal.onTable ⟨tables, some names, pointers⟩ name (Ideal.lookup f name key)).2 := by
  apply hw.onTable
  intro id hid
  have hcontents := hw.runs.contents_eq hid
  rw [Ideal.lookup_snd, Function.update_eq_self]
  have hget := perform_get f id key h
  rw [hcontents] at hget
  unfold Ideal.lookup
  cases hfails : f.fails (.get key) with
  | true =>
    rw [hfails, if_pos rfl] at hget
    exact ⟨_, h, Action.perform_bind_of_error hget, rfl, hw.runs⟩
  | false =>
    rw [hfails, if_neg Bool.false_ne_true] at hget
    rw [Action.perform_bind_of_ok hget]
    cases (tables name).get? key with
    | none => exact ⟨_, h, rfl, rfl, hw.runs⟩
    | some value => exact ⟨_, h, rfl, rfl, hw.runs⟩

/-- A write changes the table of the namespace that it is for. -/
theorem Works.write (hw : Works root loc h db readers tables names pointers) (f : Fault)
    (name : String) (w : Write) :
    ∃ answer h', (Action.lift (db.engineOf name) >>= fun id => Host.write f id [w]).perform h =
        (answer, h') ∧
      some (answer.map fun _ => Reply.done) =
        (Ideal.onTable ⟨tables, some names, pointers⟩ name (Ideal.write f w)).1 ∧
      Refines root loc ⟨h', some db, readers⟩
        (Ideal.onTable ⟨tables, some names, pointers⟩ name (Ideal.write f w)).2 := by
  apply hw.onTable
  intro id hid
  have hcontents := hw.runs.contents_eq hid
  rw [perform_write, hcontents]
  unfold Ideal.write
  cases hfails : f.fails (.write [w]) with
  | true =>
    refine ⟨_, h, rfl, rfl, ?_⟩
    rw [if_pos rfl, Function.update_eq_self]
    exact hw.runs
  | false => exact ⟨_, _, rfl, rfl, hw.runs.setContents hid _⟩

/-! ## Opening and closing -/

theorem mem_holders_iff (hw : List.Forall₂ Walks readers pointers) :
    name ∈ (holders readers).map Prod.fst ↔ name ∈ pointers.map Prod.fst := by
  have hsame : (holders readers).map Prod.fst = pointers.map Prod.fst := by
    unfold holders
    rw [List.map_map]
    induction hw with
    | nil => rfl
    | cons hwalk _ ih => rw [List.map_cons, List.map_cons, ih, ← hwalk.1]; rfl
  rw [hsame]

/-- Opening a namespace is answered as the table answers it. -/
theorem Works.openNamespace (hw : Works root loc h db readers tables names pointers) (f : Fault)
    (name : String) :
    ∃ answer h', (Database.openNamespace f db name).perform h = (answer, h') ∧
      some (answer.map fun _ => Reply.done) =
        (Ideal.step root ⟨tables, some names, pointers⟩ (.openNamespace f name)).1 ∧
      Refines root loc ⟨h', some (answer.toOption.getD db), readers⟩
        (Ideal.step root ⟨tables, some names, pointers⟩ (.openNamespace f name)).2 := by
  obtain ⟨h', hopen⟩ := hw.runs.openNamespace f name
  -- The table knows what is open and what is read as the database does, and there are no stray
  -- readers in a session.
  have hflags : outcomeBeside db.root f name (db.isOpen name)
      (decide (name ∈ (holders readers).map Prod.fst))
      (decide (name ∈ ([] : Holders).map Prod.fst)) =
      outcome root f name (decide (name ∈ names)) (decide (name ∈ pointers.map Prod.fst)) := by
    have hisOpen : db.isOpen name = decide (name ∈ names) := by
      rw [Bool.eq_iff_iff, decide_eq_true_eq, hw.isOpen]
    rw [hw.root, hisOpen, decide_eq_decide.2 (mem_holders_iff hw.walks)]
    exact outcomeBeside_false root f name _ _
  rw [hflags] at hopen
  simp only [Ideal.step, Ideal.onNames]
  cases houtcome : outcome root f name (decide (name ∈ names))
      (decide (name ∈ pointers.map Prod.fst)) with
  | error e =>
    rw [houtcome] at hopen
    exact ⟨.error e, h', hopen.1, rfl,
      .works ⟨hw.root, hopen.2, hw.ascending, hw.isOpen, hw.walks⟩⟩
  | ok u =>
    rw [houtcome] at hopen
    obtain ⟨db', hperform, hroot, hisOpen, hruns⟩ := hopen
    refine ⟨.ok db', h', hperform, rfl, .works ⟨hroot.trans hw.root, hruns,
      ascending_insertName hw.ascending, ?_, hw.walks⟩⟩
    intro other
    show other ∈ Ideal.insertName name names ↔ db'.isOpen other = true
    rw [mem_insertName_iff, hisOpen, Bool.or_eq_true, decide_eq_true_eq, hw.isOpen]

theorem Works.closeNamespace (hw : Works root loc h db readers tables names pointers)
    (name : String) :
    Refines root loc
      ⟨(db.closeNamespace name h).2, some (db.closeNamespace name h).1, readers⟩
      ⟨tables, some (names.filter (· ≠ name)), pointers⟩ := by
  obtain ⟨db', h', hclose, hmanages, hroot, hdisk, hisOpen⟩ :=
    hw.runs.manages.closeNamespace name
  rw [hclose]
  have hbelow := hw.runs.below
  rw [← hroot, ← hdisk] at hbelow
  refine .works ⟨hroot.trans hw.root, ⟨hmanages, hbelow⟩, hw.ascending.filter _, ?_, hw.walks⟩
  intro other
  rw [List.mem_filter, hisOpen, Bool.and_eq_true, hw.isOpen, and_comm]

/-! ## Readers -/

theorem walks_getElem? (hwalks : List.Forall₂ Walks readers pointers) (n : Nat) :
    (readers[n]? = none ∧ pointers[n]? = none) ∨
      ∃ r p, readers[n]? = some r ∧ pointers[n]? = some p ∧ Walks r p := by
  induction hwalks generalizing n with
  | nil => exact .inl ⟨rfl, rfl⟩
  | cons hwalk _ ih =>
    cases n with
    | zero => exact .inr ⟨_, _, rfl, rfl, hwalk⟩
    | succ n => exact ih n

theorem walks_set (hwalks : List.Forall₂ Walks readers pointers) {r : String × Reader}
    {p : String × Pointer} (hwalk : Walks r p) (n : Nat) :
    List.Forall₂ Walks (readers.set n r) (pointers.set n p) := by
  induction hwalks generalizing n with
  | nil => exact .nil
  | cons hfirst hrest ih =>
    cases n with
    | zero => exact .cons hwalk hrest
    | succ n => exact .cons hfirst (ih n)

theorem walks_eraseIdx (hwalks : List.Forall₂ Walks readers pointers) (n : Nat) :
    List.Forall₂ Walks (readers.eraseIdx n) (pointers.eraseIdx n) := by
  induction hwalks generalizing n with
  | nil => exact .nil
  | cons hfirst hrest ih =>
    cases n with
    | zero => exact hrest
    | succ n => exact .cons hfirst (ih n)

/-- Moving a reader's cursor leaves who holds what. -/
theorem holders_set {n : Nat} {r : Reader} (hr : readers[n]? = some (name, r)) (c : Cursor) :
    holders (readers.set n (name, { r with cursor := c })) = holders readers := by
  obtain ⟨hlt, hget⟩ := List.getElem?_eq_some_iff.1 hr
  have hlt' : n < (holders readers).length := by
    rw [holders, List.length_map]
    exact hlt
  have hsame : (holders readers)[n] = (name, r.engine) := by
    simp only [holders, List.getElem_map, hget]
  calc holders (readers.set n (name, { r with cursor := c }))
      = (holders readers).set n (name, r.engine) := List.map_set
    _ = holders readers := by rw [← hsame, List.set_getElem_self]

theorem holders_eraseIdx {n : Nat} {r : Reader} (hr : readers[n]? = some (name, r)) :
    (holders readers).Perm ((name, r.engine) :: holders (readers.eraseIdx n)) := by
  obtain ⟨hlt, hget⟩ := List.getElem?_eq_some_iff.1 hr
  have hperm := (List.getElem_cons_eraseIdx_perm hlt).symm
  rw [hget] at hperm
  exact hperm.map _

/-- Making a reader is answered as the table answers it. -/
theorem Works.iterate (hw : Works root loc h db readers tables names pointers) (name : String) :
    (Session.step root ⟨h, some db, readers⟩ (.iterate name)).1 =
        (Ideal.step root ⟨tables, some names, pointers⟩ (.iterate name)).1 ∧
      Refines root loc (Session.step root ⟨h, some db, readers⟩ (.iterate name)).2
        (Ideal.step root ⟨tables, some names, pointers⟩ (.iterate name)).2 := by
  simp only [Session.step, Session.onDatabase, Ideal.step, Ideal.onNames, newReader?]
  by_cases hmem : name ∈ names
  · obtain ⟨id, hid, hopened⟩ := engineOf?_of_isOpen ((hw.isOpen name).1 hmem)
    have hcontents := hw.runs.contents_eq hopened
    -- A new reader follows the pointer in front of all pairs.
    have hwalk : Walks (name, (Reader.make h id).1) (name, .before (tables name).pairs) := by
      refine ⟨rfl, ?_⟩
      rw [← hcontents]
      exact Cursor.follows_before _
    rw [if_pos hmem, hid]
    exact ⟨rfl, .works ⟨hw.root, ⟨hw.runs.manages.addReader hopened, hw.runs.below⟩, hw.ascending,
      hw.isOpen, .cons hwalk hw.walks⟩⟩
  · have hclosed : db.isOpen name = false := by
      rw [Bool.eq_false_iff]
      intro hopen
      exact hmem ((hw.isOpen name).2 hopen)
    rw [if_neg hmem, engineOf?_of_not_isOpen hclosed]
    exact ⟨rfl, .works hw⟩

/-- A reader goes where its pointer goes. -/
theorem Works.move (hw : Works root loc h db readers tables names pointers) (reader : Nat)
    (m : Move) :
    (Session.step root ⟨h, some db, readers⟩ (.move reader m)).1 =
        (Ideal.step root ⟨tables, some names, pointers⟩ (.move reader m)).1 ∧
      Refines root loc (Session.step root ⟨h, some db, readers⟩ (.move reader m)).2
        (Ideal.step root ⟨tables, some names, pointers⟩ (.move reader m)).2 := by
  simp only [Session.step, Ideal.step]
  rcases walks_getElem? hw.walks reader with
    ⟨hnone, hnone'⟩ | ⟨⟨name, r⟩, ⟨name', p⟩, hr, hp, hwalk⟩
  · rw [hnone, hnone']
    exact ⟨rfl, .works hw⟩
  · obtain ⟨hname, hfollows⟩ := hwalk
    have hfollows' : (r.cursor.move m).Follows (p.move m) := hfollows.move m
    have hwalk' : Walks (name, { r with cursor := r.cursor.move m }) (name', p.move m) :=
      ⟨hname, hfollows'⟩
    have hruns := hw.runs
    rw [← holders_set hr (r.cursor.move m)] at hruns
    rw [hr, hp]
    refine ⟨?_, .works ⟨hw.root, hruns, hw.ascending, hw.isOpen, ?_⟩⟩
    · simp only [Reader.move, hfollows'.current]
    · exact walks_set hw.walks hwalk' reader

theorem Works.dropReader (hw : Works root loc h db readers tables names pointers) (reader : Nat) :
    (Session.step root ⟨h, some db, readers⟩ (.dropReader reader)).1 =
        (Ideal.step root ⟨tables, some names, pointers⟩ (.dropReader reader)).1 ∧
      Refines root loc (Session.step root ⟨h, some db, readers⟩ (.dropReader reader)).2
        (Ideal.step root ⟨tables, some names, pointers⟩ (.dropReader reader)).2 := by
  simp only [Session.step, Ideal.step]
  rcases walks_getElem? hw.walks reader with ⟨hnone, hnone'⟩ | ⟨⟨name, r⟩, p, hr, hp, -⟩
  · rw [hnone, hnone']
    exact ⟨rfl, .works hw⟩
  · -- The reader may stand anywhere among those that are there.
    have hmanages := (hw.runs.manages.perm (holders_eraseIdx hr) (.refl _)).dropReader
    rw [hr, hp]
    exact ⟨rfl, .works ⟨hw.root, ⟨hmanages, hw.runs.below⟩, hw.ascending, hw.isOpen,
      walks_eraseIdx hw.walks reader⟩⟩

/-! ## Runs -/

variable {s : Session} {i : Ideal}

/-- A step of a database is answered as a table answers it, and leaves a session that does what the
    ideal one does. -/
theorem step_refines (hr : Refines root loc s i) (label : Label) :
    (s.step root label).1 = (i.step root label).1 ∧
      Refines root loc (s.step root label).2 (i.step root label).2 := by
  cases hr with
  | idle hi =>
    cases label with
    | create f =>
      obtain ⟨h', hcreate⟩ := hi.works_create f
      simp only [Session.step, Ideal.step]
      cases houtcome : outcome root f defaultNamespace false false with
      | error e =>
        rw [houtcome] at hcreate
        rw [hcreate.1]
        exact ⟨rfl, .idle hcreate.2⟩
      | ok u =>
        rw [houtcome] at hcreate
        obtain ⟨db, hperform, hworks⟩ := hcreate
        rw [hperform]
        exact ⟨rfl, .works hworks⟩
    -- Without a database, there is nothing to ask.
    | _ => exact ⟨rfl, .idle hi⟩
  | works hw =>
    cases label with
    | create f => exact ⟨rfl, .works hw⟩
    | drop =>
      have hidle := hw.runs.dropReaders.close
      rw [hw.root] at hidle
      exact ⟨rfl, .idle hidle⟩
    | openNamespace f name =>
      obtain ⟨answer, h', hperform, hanswer, hrefines⟩ := hw.openNamespace f name
      simp only [Session.step, Session.onDatabase, hperform]
      exact ⟨hanswer, hrefines⟩
    | closeNamespace name => exact ⟨rfl, hw.closeNamespace name⟩
    | namespaces =>
      have hnames := namespaces_eq hw.runs.manages.names hw.ascending hw.isOpen
      simp only [Session.step, Session.onDatabase, Ideal.step, Ideal.onNames, hnames, true_and]
      exact .works hw
    | get f name key =>
      obtain ⟨answer, h', hperform, hanswer, hrefines⟩ := hw.get f name key
      simp only [Session.step, Session.onDatabase, hperform]
      exact ⟨hanswer, hrefines⟩
    | put f name key value =>
      obtain ⟨answer, h', hperform, hanswer, hrefines⟩ := hw.write f name (.put key value)
      simp only [Session.step, Session.onDatabase, Database.put, hperform]
      exact ⟨hanswer, hrefines⟩
    | delete f name key =>
      obtain ⟨answer, h', hperform, hanswer, hrefines⟩ := hw.write f name (.delete key)
      simp only [Session.step, Session.onDatabase, Database.delete, hperform]
      exact ⟨hanswer, hrefines⟩
    | iterate name => exact hw.iterate name
    | move reader m => exact hw.move reader m
    | dropReader reader => exact hw.dropReader reader

/-- A run of a database is answered as a table answers it. -/
theorem run_refines (hr : Refines root loc s i) (labels : List Label) :
    s.answers root labels = i.answers root labels ∧
      Refines root loc (s.run root labels) (i.run root labels) := by
  -- By induction on the run; that the session refines the ideal one is the invariant.
  induction labels generalizing s i with
  | nil => exact ⟨rfl, hr⟩
  | cons label labels ih =>
    obtain ⟨hanswer, hr'⟩ := step_refines hr label
    obtain ⟨hanswers, hrun⟩ := ih hr'
    refine ⟨?_, hrun⟩
    rw [Session.answers, Ideal.answers, hanswer, hanswers]

/-- What an observer of the directory sees of a session is what the table has. -/
theorem Refines.stored_eq (hr : Refines root loc s i) (hvalid : isValidName name = true) :
    stored s.host (directoryOf root name) = i.tables name := by
  cases hr with
  | @idle h tables hi =>
    have hbelow := hi.below
    rw [← stored_makeDirectories h root (directoryOf root name)]
    exact Below.stored_eq hbelow hvalid
  | works hw =>
    rw [← hw.root]
    exact hw.runs.below.stored_eq hvalid

theorem Refines.namespaces_eq (hr : Refines root loc s i) :
    s.database.map namespaces = i.opened := by
  cases hr with
  | idle hi => rfl
  | works hw =>
    exact congrArg some (Database.namespaces_eq hw.runs.manages.names hw.ascending hw.isOpen)

theorem Refines.ascending (hr : Refines root loc s i) {names : List String}
    (hopened : i.opened = some names) : names.Pairwise (· < ·) := by
  cases hr with
  | idle hi => cases hopened
  | works hw =>
    cases hopened
    exact hw.ascending

/-- Whether a directory that a database is made in is empty: it is there or can be made, nothing
    stands in it, and no engine in it is live. -/
structure EmptyDirectory (root : String) (loc : Location) (h : Host) : Prop where
  made : (h.disk.makeDirectories root).1 = .ok ()
  /-- The path leads to the directory. -/
  leads : (h.disk.makeDirectories root).2.walk (h.disk.start root) (Path.names root) = .ok loc
  directory : (h.disk.makeDirectories root).2.node? loc = some .directory
  /-- Nothing stands in the directory. -/
  bare : ∀ name rest, (h.disk.makeDirectories root).2.node? (loc ++ name :: rest) = none
  /-- Live engines stand elsewhere. -/
  elsewhere : ∀ e ∈ h.engines, ∀ name rest, e.location ≠ loc ++ name :: rest
  /-- The identities of live engines were given out. -/
  known : ∀ e ∈ h.engines, e.id < h.nextEngine

theorem EmptyDirectory.idle (he : EmptyDirectory root loc h) :
    Idle root loc h [] fun _ => Contents.empty := by
  have hadded := onlyDirectoriesAdded_makeDirectories h.disk root
  refine ⟨he.made, ⟨⟨?_, ?_, he.directory⟩, ?_, ?_⟩, ?_⟩
  · exact makeDirectories_of_keeps he.made (.refl _)
  · rw [start_congr hadded.start]
    exact he.leads
  · intro name
    exact .inl (he.bare _ [])
  · intro name
    exact .inr ⟨he.bare _ [engineFileName], rfl⟩
  · refine ⟨he.known, ?_, ?_, ?_⟩
    · intro e hmem name hplace
      exact absurd hplace (he.elsewhere e hmem _ [engineFileName])
    · rintro name id (hmem | hmem) <;> cases hmem
    · intro e hmem name hplace
      exact absurd hplace (he.elsewhere e hmem _ [engineFileName])

/-- A database in an empty directory behaves, whatever is done to it and whichever calls fail, as a
    table that has contents for every namespace and is empty at first. What the table has is on the
    disk, the namespaces that it has open are open, each key has the value that was put last, unless
    it was deleted since, and the laws of tables hold at every moment. -/
theorem refines_tables {root : String} {loc : Location} {h : Host}
    (hempty : EmptyDirectory root loc h) (labels : List Label) :
    let start : Session := ⟨h, none, []⟩
    let s := start.run root labels
    let i := Ideal.blank.run root labels
    start.answers root labels = Ideal.blank.answers root labels ∧
      (∀ name, isValidName name = true → stored s.host (directoryOf root name) = i.tables name) ∧
      s.database.map namespaces = i.opened ∧
      (∀ names, i.opened = some names → names.Pairwise (· < ·)) ∧
      (∀ name key, (i.tables name).get? key =
        lastPut name key (labels.zip (start.answers root labels))) ∧
      Lawful root i := by
  intro start s i
  have hstart : Refines root loc start Ideal.blank := .idle hempty.idle
  obtain ⟨hanswers, hrun⟩ := run_refines hstart labels
  refine ⟨hanswers, fun _ => hrun.stored_eq, hrun.namespaces_eq, fun _ => hrun.ascending, ?_,
    Ideal.lawful root i⟩
  intro name key
  rw [hanswers]
  exact Ideal.get?_run root Ideal.blank labels name key

theorem emptyDirectory_of_empty_disk :
    EmptyDirectory "/data" ["data"] (Host.ofDisk (Disk.empty ["data"])) where
  made := rfl
  leads := rfl
  directory := rfl
  -- Both locations of the disk lie less deep.
  bare _ _ := rfl
  elsewhere e hmem := by cases hmem
  known e hmem := by cases hmem

/-- On an empty disk, a namespace that is written, closed and opened again while a reader is left,
    and closed and opened once more in a new database. -/
theorem refines_tables_of_empty_disk :
    let h := Host.ofDisk (Disk.empty ["data"])
    let labels : List Label := [.create .none, .openNamespace .none "a", .put .none "a" [1] [2],
      .iterate "a", .closeNamespace "a", .get .none "a" [1], .openNamespace ⟨fun _ => true⟩ "a",
      .get .none "a" [1], .get .none "" [1], .move 0 .first, .drop, .create .none, .namespaces,
      .openNamespace .none "a", .get .none "a" [1]]
    EmptyDirectory "/data" ["data"] h ∧
      Session.answers "/data" ⟨h, none, []⟩ labels =
        [some (.ok .done), some (.ok .done), some (.ok .done), some (.ok (.reader true)),
          some (.ok .done), some (.error (.closedNamespace "a")), some (.ok .done),
          some (.ok (.value [2])), some (.error (.missingKey [1] "")),
          some (.ok (.pair (some ([1], [2])))), some (.ok .done), some (.ok .done),
          some (.ok (.names [""])), some (.ok .done), some (.ok (.value [2]))] := by
  intro h labels
  have hempty := emptyDirectory_of_empty_disk
  refine ⟨hempty, (refines_tables hempty labels).1.trans ?_⟩
  rfl

end ReplicaStore.Database
