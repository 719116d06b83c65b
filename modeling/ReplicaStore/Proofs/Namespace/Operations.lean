import ReplicaStore.Proofs.Namespace.Handles

/-! # Opening and closing namespaces

    A database has the engines of its open namespaces, and remembers those of closed ones that are
    still read. Where one of these is live, opening the namespace picks it up, so that no reader of
    a namespace keeps it from being opened again. Where none is, the place is free, unless a reader
    of an earlier database is left there; of such a *stray* reader the database knows nothing.

    * `Manages`: what a database knows of the live engines.
    * `Runs.openNamespace`, `Manages.closeNamespace`: what the two operations do.
    * `Idle.create`, `Runs.close`: what making and dropping a database does. -/

namespace ReplicaStore.Database

open Host

/-! ## Look-ups -/

variable {entries : Holders} {name other : String} {id : EngineId}

theorem mem_of_lookup (h : entries.lookup name = some id) : (name, id) ∈ entries := by
  obtain ⟨before, behind, heq, -⟩ := List.lookup_eq_some_iff.1 h
  rw [heq]
  exact List.mem_append_right _ List.mem_cons_self

/-- An entry that is found first is found first among those that stay, if it stays. -/
theorem lookup_filter {p : String × EngineId → Bool} (h : entries.lookup name = some id)
    (hp : p (name, id) = true) : (entries.filter p).lookup name = some id := by
  obtain ⟨before, behind, heq, hbefore⟩ := List.lookup_eq_some_iff.1 h
  apply List.lookup_eq_some_iff.2
  refine ⟨before.filter p, behind.filter p, ?_, ?_⟩
  · rw [heq, List.filter_append, List.filter_cons_of_pos hp]
  · intro entry hmem
    exact hbefore entry (List.mem_filter.1 hmem).1

theorem mem_without_iff {entry : String × EngineId} :
    entry ∈ without name entries ↔ entry ∈ entries ∧ entry.1 ≠ name := by
  simp only [without, List.mem_filter, decide_eq_true_eq]

/-- Where a name is found in an entry at all. -/
theorem mem_map_fst_iff : name ∈ entries.map Prod.fst ↔ ∃ id, (name, id) ∈ entries := by
  rw [List.mem_map]
  constructor
  · rintro ⟨⟨first, id⟩, hmem, rfl⟩
    exact ⟨id, hmem⟩
  · rintro ⟨id, hmem⟩
    exact ⟨(name, id), hmem, rfl⟩

/-- With one entry for a name at most, taking it away takes the name away. -/
theorem perm_without (hnodup : (entries.map Prod.fst).Nodup) (hmem : (name, id) ∈ entries) :
    entries.Perm ((name, id) :: without name entries) := by
  induction entries with
  | nil => cases hmem
  | cons entry entries ih =>
    obtain ⟨first, id'⟩ := entry
    rw [List.map_cons, List.nodup_cons] at hnodup
    obtain ⟨hfirst, hrest⟩ := hnodup
    rcases List.mem_cons.1 hmem with heq | hmem'
    · cases heq
      have hsame : without name ((name, id) :: entries) = entries := by
        unfold without
        rw [List.filter_cons_of_neg (by simp)]
        apply List.filter_eq_self.2
        intro other hother
        simp only [decide_eq_true_eq]
        intro hname
        exact hfirst (mem_map_fst_iff.2 ⟨other.2, hname ▸ hother⟩)
      rw [hsame]
    · -- The entry stands further back, so the first one is of another name.
      have hne : first ≠ name := by
        intro heq
        exact hfirst (heq ▸ mem_map_fst_iff.2 ⟨id, hmem'⟩)
      have hcons :
          without name ((first, id') :: entries) = (first, id') :: without name entries := by
        unfold without
        rw [List.filter_cons_of_pos (by simpa using hne)]
      rw [hcons]
      exact ((ih hrest hmem').cons _).trans (.swap _ _ _)

/-! ## Managing engines -/

/-- Whether a database knows its engines: it has those of its open namespaces, each under one name,
    and remembers, of the closed ones, those that are still read through it. Of the engines that
    stray readers hold, it has none. -/
structure Manages (loc : Location) (db : Database) (h : Host) (held strays : Holders) : Prop where
  staffed : Staffed loc h db.opened (held ++ strays)
  names : (db.opened.map Prod.fst).Nodup
  valid : ∀ name id, (name, id) ∈ db.opened → isValidName name = true
  /-- What is read of a closed namespace is remembered. -/
  remembered : ∀ name id, (name, id) ∈ held → db.isOpen name = false →
    db.closed.lookup name = some id
  /-- Nothing is remembered of an open namespace. -/
  forgotten : ∀ name id, (name, id) ∈ db.closed → db.isOpen name = false
  /-- What is remembered of a namespace was an engine of it. -/
  faithful : ∀ name id, (name, id) ∈ db.closed → id < h.nextEngine ∧
    ∀ e ∈ h.engines, e.id = id → e.location = place loc name
  /-- What a stray reader holds is not the database's. -/
  apart : ∀ name id, (name, id) ∈ strays →
    (name, id) ∉ db.opened ∧ (name, id) ∉ db.closed ∧ (name, id) ∉ held

variable {loc : Location} {db : Database} {h : Host} {held held' strays strays' : Holders}
  {f : Fault} {root : String}

theorem isOpen_iff : db.isOpen name = true ↔ name ∈ db.opened.map Prod.fst := by
  rw [isOpen, engineOf?, List.lookup_isSome_iff, List.mem_map]
  refine exists_congr fun entry => and_congr_right fun _ => ?_
  rw [beq_iff_eq, eq_comm]

theorem engineOf?_of_isOpen (hopen : db.isOpen name = true) :
    ∃ id, db.engineOf? name = some id ∧ (name, id) ∈ db.opened := by
  obtain ⟨id, hid⟩ := Option.isSome_iff_exists.1 hopen
  exact ⟨id, hid, mem_of_lookup hid⟩

theorem engineOf?_of_not_isOpen (hclosed : db.isOpen name = false) : db.engineOf? name = none := by
  simpa [isOpen] using hclosed

theorem isOpen_of_mem_opened (hmem : (name, id) ∈ db.opened) : db.isOpen name = true :=
  isOpen_iff.2 (mem_map_fst_iff.2 ⟨id, hmem⟩)

theorem not_mem_opened (hclosed : db.isOpen name = false) : (name, id) ∉ db.opened := by
  intro hmem
  rw [isOpen_of_mem_opened hmem] at hclosed
  cases hclosed

/-- A database without namespaces knows all its engines, whoever else holds some. -/
theorem manages_of_staffed (hs : Staffed loc h [] strays) (root : String) :
    Manages loc ⟨root, [], []⟩ h [] strays where
  staffed := hs
  names := List.nodup_nil
  valid _ _ hopened := by cases hopened
  remembered _ _ hread := by cases hread
  forgotten _ _ hclosed := by cases hclosed
  faithful _ _ hclosed := by cases hclosed
  apart _ _ _ := ⟨List.not_mem_nil, List.not_mem_nil, List.not_mem_nil⟩

/-- Whoever holds an engine has it open, reads it, or is a stray reader. -/
theorem Manages.held_of_place (hm : Manages loc db h held strays) {e : LiveEngine}
    (hmem : e ∈ h.engines) (hplace : e.location = place loc name) :
    (name, e.id) ∈ db.opened ∨ (name, e.id) ∈ held ∨ (name, e.id) ∈ strays := by
  rcases hm.staffed.held_of_place hmem hplace with hopened | hread
  · exact .inl hopened
  · exact .inr (List.mem_append.1 hread)

/-- A closed namespace has a live engine to be picked up exactly if it is still read. -/
theorem Manages.liveClosed?_eq_some_iff (hm : Manages loc db h held strays)
    (hclosed : db.isOpen name = false) : db.liveClosed? h name = some id ↔ (name, id) ∈ held := by
  unfold liveClosed?
  rw [Option.filter_eq_some_iff]
  constructor
  · rintro ⟨hlookup, hlive⟩
    have hentry := mem_of_lookup hlookup
    obtain ⟨e, hfind⟩ := Option.isSome_iff_exists.1 hlive
    have hmem : e ∈ h.engines := List.mem_of_find?_eq_some hfind
    have hid : e.id = id := by simpa using List.find?_some hfind
    have hplace := (hm.faithful name id hentry).2 e hmem hid
    -- Nobody has the namespace open, and no stray reader holds what is remembered.
    rcases hm.held_of_place hmem hplace with hopened | hread | hstray
    · exact absurd hopened (not_mem_opened hclosed)
    · rwa [hid] at hread
    · rw [hid] at hstray
      exact absurd hentry (hm.apart name id hstray).2.1
  · intro hmem
    exact ⟨hm.remembered name id hmem hclosed,
      hm.staffed.isLive (.inr (List.mem_append_left _ hmem))⟩

theorem Manages.liveClosed?_eq_none (hm : Manages loc db h held strays)
    (hclosed : db.isOpen name = false) (hunread : ∀ id, (name, id) ∉ held) :
    db.liveClosed? h name = none := by
  cases hlive : db.liveClosed? h name with
  | none => rfl
  | some id => exact absurd ((hm.liveClosed?_eq_some_iff hclosed).1 hlive) (hunread id)

/-- Where the database knows of no engine of a namespace, a stray reader alone can hold one. -/
theorem Manages.isLocked_iff (hm : Manages loc db h held strays) (hclosed : db.isOpen name = false)
    (hunread : ∀ id, (name, id) ∉ held) :
    h.isLocked (place loc name) = true ↔ name ∈ strays.map Prod.fst := by
  rw [hm.staffed.isLocked_iff, mem_map_fst_iff]
  refine exists_congr fun id => ?_
  rw [List.mem_append]
  -- Whoever locks the place holds an engine of the namespace; of the three kinds of holders, two
  -- are ruled out.
  constructor
  · rintro (hopened | hread | hstray)
    · exact absurd hopened (not_mem_opened hclosed)
    · exact absurd hread (hunread id)
    · exact hstray
  · intro hstray
    exact .inr (.inr hstray)

/-- Where engines only change their counts, what is remembered stays faithful. -/
theorem faithful_recount {closed : Holders} (owners readers : Nat → Nat)
    (hfaithful : ∀ name id, (name, id) ∈ closed → id < h.nextEngine ∧
      ∀ e ∈ h.engines, e.id = id → e.location = place loc name) (id : EngineId) :
    let h' := h.recount id fun e =>
      { e with owners := owners e.owners, readers := readers e.readers }
    ∀ name id', (name, id') ∈ closed → id' < h'.nextEngine ∧
      ∀ e ∈ h'.engines, e.id = id' → e.location = place loc name := by
  intro h' name id' hmem
  obtain ⟨hlt, hat⟩ := hfaithful name id' hmem
  refine ⟨hlt, ?_⟩
  intro e hmem' heq
  obtain ⟨e₀, hmem₀, rfl, -⟩ := mem_recount_iff.1 hmem'
  rw [id_recounted] at heq
  rw [location_recounted]
  exact hat e₀ hmem₀ heq

theorem Manages.perm (hm : Manages loc db h held strays) (hperm : held.Perm held')
    (hperm' : strays.Perm strays') : Manages loc db h held' strays' where
  staffed := hm.staffed.perm (.refl _) (hperm.append hperm')
  names := hm.names
  valid := hm.valid
  remembered name id hmem hclosed := hm.remembered name id (hperm.mem_iff.2 hmem) hclosed
  forgotten := hm.forgotten
  faithful := hm.faithful
  apart name id hmem := by
    rw [← hperm.mem_iff]
    exact hm.apart name id (hperm'.mem_iff.2 hmem)

theorem Manages.of_engines (hm : Manages loc db h held strays) {h' : Host}
    (hengines : h'.engines = h.engines) (hnext : h'.nextEngine = h.nextEngine) :
    Manages loc db h' held strays where
  staffed := hm.staffed.of_engines hengines hnext
  names := hm.names
  valid := hm.valid
  remembered := hm.remembered
  forgotten := hm.forgotten
  faithful := by
    rw [hengines, hnext]
    exact hm.faithful
  apart := hm.apart

/-! ## Opening -/

theorem isOpen_withOpen :
    (db.withOpen name id).isOpen other = (decide (other = name) || db.isOpen other) := by
  unfold isOpen engineOf? withOpen
  simp only [List.lookup_cons]
  by_cases heq : other = name
  · simp [heq]
  · simp [beq_eq_false_iff_ne.2 heq, heq]

/-- A namespace that is opened on an engine is open, and no longer remembered. -/
theorem Manages.withOpen {h' : Host} (hm : Manages loc db h held strays)
    (hvalid : isValidName name = true) (hclosed : db.isOpen name = false)
    (hstaffed : Staffed loc h' ((name, id) :: db.opened) (held ++ strays))
    (hfaithful : ∀ name id, (name, id) ∈ db.closed → id < h'.nextEngine ∧
      ∀ e ∈ h'.engines, e.id = id → e.location = place loc name)
    (hapart : (name, id) ∉ strays) :
    Manages loc (db.withOpen name id) h' held strays where
  staffed := hstaffed
  names := by
    have hnot : name ∉ db.opened.map Prod.fst := by
      rw [← isOpen_iff, hclosed]
      simp
    exact List.nodup_cons.2 ⟨hnot, hm.names⟩
  valid other id' hmem := by
    rcases List.mem_cons.1 hmem with heq | hold
    · cases heq
      exact hvalid
    · exact hm.valid other id' hold
  remembered other id' hmem hother := by
    -- The other namespaces are remembered as before.
    rw [isOpen_withOpen, Bool.or_eq_false_iff, decide_eq_false_iff_not] at hother
    exact lookup_filter (hm.remembered other id' hmem hother.2) (by simpa using hother.1)
  forgotten other id' hmem := by
    obtain ⟨hentry, hne⟩ := mem_without_iff.1 hmem
    rw [isOpen_withOpen, decide_eq_false hne, hm.forgotten other id' hentry]
    rfl
  faithful other id' hmem := hfaithful other id' (mem_without_iff.1 hmem).1
  apart other id' hmem := by
    obtain ⟨hopened, hentry, hread⟩ := hm.apart other id' hmem
    refine ⟨?_, fun hmem' => hentry (mem_without_iff.1 hmem').1, hread⟩
    intro hmem'
    rcases List.mem_cons.1 hmem' with heq | hold
    · exact hapart (heq ▸ hmem)
    · exact hopened hold

/-- A namespace cannot be opened under an invalid name. -/
theorem perform_openNamespace_of_invalid (hinvalid : isValidName name = false) :
    (openNamespace f db name).perform h = (.error (.invalidNamespace name), h) := by
  unfold openNamespace
  rw [hinvalid]
  rfl

/-- An open namespace stays open. -/
theorem perform_openNamespace_of_isOpen (hvalid : isValidName name = true)
    (hopen : db.isOpen name = true) : (openNamespace f db name).perform h = (.ok db, h) := by
  unfold openNamespace
  rw [hvalid, hopen]
  rfl

/-- Opening a namespace that is closed. -/
theorem perform_openNamespace_of_closed (hvalid : isValidName name = true)
    (hclosed : db.isOpen name = false) :
    (openNamespace f db name).perform h =
      match db.liveClosed? h name with
      | some id => (.ok (db.withOpen name id), h.addOwner id)
      | none => (do
          let id ← Host.openEngine f (directoryOf db.root name)
          return db.withOpen name id : Action Host Database).perform h := by
  have hget : (MonadState.get : Action Host Host).perform h = (.ok h, h) := rfl
  unfold openNamespace
  rw [hvalid, hclosed]
  apply (Action.perform_bind_of_ok hget).trans
  -- A live engine of the closed namespace is picked up; otherwise the engine is opened.
  cases db.liveClosed? h name with
  | none => rfl
  | some id => rfl

/-- What comes of opening a namespace that no stray reader holds: a name may be invalid; a namespace
    that is open stays open, and one that is still read is picked up; any other one needs its engine
    to be opened. -/
def outcome (root : String) (f : Fault) (name : String) (isOpen isRead : Bool) :
    Except Error Unit :=
  if isValidName name = false then .error (.invalidNamespace name)
  else if isOpen || isRead then .ok ()
  else opening root f name

/-- What comes of opening a namespace: where its engine needs to be opened and could be, a stray
    reader that holds it prevents that. -/
def outcomeBeside (root : String) (f : Fault) (name : String) (isOpen isRead isStray : Bool) :
    Except Error Unit :=
  match outcome root f name isOpen isRead with
  | .error e => .error e
  | .ok () => if isStray && !(isOpen || isRead) then .error (.engine .locked) else .ok ()

theorem outcomeBeside_false (root : String) (f : Fault) (name : String) (isOpen isRead : Bool) :
    outcomeBeside root f name isOpen isRead false = outcome root f name isOpen isRead := by
  unfold outcomeBeside
  cases outcome root f name isOpen isRead with
  | error e => rfl
  | ok u => rfl

theorem outcome_eq_opening (hvalid : isValidName name = true) :
    outcome root f name false false = opening root f name := by
  simp only [outcome, hvalid, Bool.true_eq_false, if_false, Bool.or_self, Bool.false_eq_true]

/-- The engine is found locked exactly if a stray reader is all that stands in the way. -/
theorem outcomeBeside_eq_locked_iff (root : String) (f : Fault) (name : String)
    (isOpen isRead isStray : Bool) :
    outcomeBeside root f name isOpen isRead isStray = .error (.engine .locked) ↔
      isValidName name = true ∧ isOpen = false ∧ isRead = false ∧ opening root f name = .ok () ∧
        isStray = true := by
  -- No attempt to open an engine reports by itself that it is locked, so that answer is the stray
  -- reader.
  have hopening : opening root f name ≠ .error (.engine .locked) := opening_ne_locked
  unfold outcomeBeside outcome
  cases isValidName name with
  | false => simp
  | true =>
  cases isOpen with
  | true => simp
  | false =>
  cases isRead with
  | true => simp
  | false =>
  cases hresult : opening root f name with
  | error e =>
    rw [hresult] at hopening
    simpa using hopening
  | ok u => simp

variable {tables : String → Contents}

/-- Whether a database has its engines, and its directory stores contents. -/
structure Runs (loc : Location) (db : Database) (h : Host) (held strays : Holders)
    (tables : String → Contents) : Prop where
  manages : Manages loc db h held strays
  below : Below db.root loc h.disk tables

/-- A namespace that is neither open nor read is opened unless its engine cannot be, or a stray
    reader holds one. -/
theorem Runs.openNamespace_of_unread (hr : Runs loc db h held strays tables) (f : Fault)
    (hvalid : isValidName name = true) (hclosed : db.isOpen name = false)
    (hunread : ∀ id, (name, id) ∉ held) :
    ∃ h', match outcomeBeside db.root f name false false
          (decide (name ∈ strays.map Prod.fst)) with
      | .error e =>
        (openNamespace f db name).perform h = (.error e, h') ∧ Runs loc db h' held strays tables
      | .ok () => ∃ id, (openNamespace f db name).perform h = (.ok (db.withOpen name id), h') ∧
          Runs loc (db.withOpen name id) h' held strays tables := by
  obtain ⟨hm, hb⟩ := hr
  obtain ⟨d', hb', hengine⟩ := hb.perform_openEngine_eq hvalid f
  have hlocked := hm.isLocked_iff hclosed hunread
  rw [perform_openNamespace_of_closed hvalid hclosed, hm.liveClosed?_eq_none hclosed hunread]
  unfold outcomeBeside
  rw [outcome_eq_opening hvalid]
  cases hopening : opening db.root f name with
  | error e =>
    rw [hopening] at hengine
    exact ⟨_, Action.perform_bind_of_error hengine, hm.of_engines rfl rfl, hb'⟩
  | ok u =>
  rw [hopening] at hengine
  -- The engine could be opened; what decides is whether a stray reader has it open.
  by_cases hstray : name ∈ strays.map Prod.fst
  · simp only [hlocked.2 hstray, if_true] at hengine
    rw [decide_eq_true hstray]
    exact ⟨_, Action.perform_bind_of_error hengine, hm.of_engines rfl rfl, hb'⟩
  · have hunlocked : h.isLocked (place loc name) = false := by
      rw [Bool.eq_false_iff]
      exact fun htrue => hstray (hlocked.1 htrue)
    simp only [hunlocked, Bool.false_eq_true, if_false] at hengine
    rw [decide_eq_false hstray]
    have hfree := isLocked_eq_false_iff.1 hunlocked
    refine ⟨_, h.nextEngine, Action.perform_bind_of_ok hengine,
      hm.withOpen hvalid hclosed (hm.staffed.open hfree d') ?_ ?_, hb'⟩
    · -- What is remembered is older than the new engine.
      intro other id hmem
      obtain ⟨hlt, hat⟩ := hm.faithful other id hmem
      refine ⟨Nat.lt_succ_of_lt hlt, ?_⟩
      intro e hmem' heq
      rcases List.mem_cons.1 hmem' with rfl | hold
      · exact absurd heq.symm (Nat.ne_of_lt hlt)
      · exact hat e hold heq
    · intro hmem
      exact hstray (mem_map_fst_iff.2 ⟨_, hmem⟩)

/-- Opening a namespace opens it or fails as foretold. Either way all contents stay, and so does
    what is open besides. -/
theorem Runs.openNamespace (hr : Runs loc db h held strays tables) (f : Fault) (name : String) :
    ∃ h', match outcomeBeside db.root f name (db.isOpen name)
          (decide (name ∈ held.map Prod.fst)) (decide (name ∈ strays.map Prod.fst)) with
      | .error e =>
        (openNamespace f db name).perform h = (.error e, h') ∧ Runs loc db h' held strays tables
      | .ok () => ∃ db', (openNamespace f db name).perform h = (.ok db', h') ∧
          db'.root = db.root ∧
          (∀ other, db'.isOpen other = (decide (other = name) || db.isOpen other)) ∧
          Runs loc db' h' held strays tables := by
  -- The cases are those of the answer: an invalid name, an open namespace, one that is read, and
  -- any other one.
  have hm := hr.manages
  cases hvalid : isValidName name with
  | false =>
    simp only [outcomeBeside, outcome, hvalid, if_true]
    exact ⟨h, perform_openNamespace_of_invalid hvalid, hr⟩
  | true =>
  cases hopen : db.isOpen name with
  | true =>
    simp only [outcomeBeside, outcome, hvalid, Bool.true_eq_false, if_false, Bool.true_or, if_true,
      Bool.not_true, Bool.and_false, Bool.false_eq_true]
    refine ⟨h, db, perform_openNamespace_of_isOpen hvalid hopen, rfl, ?_, hr⟩
    intro other
    by_cases heq : other = name
    · rw [heq, hopen, Bool.or_true]
    · rw [decide_eq_false heq, Bool.false_or]
  | false =>
  by_cases hread : name ∈ held.map Prod.fst
  · -- The readers' engine is live, so it is picked up, whatever an attempt to open one would give.
    obtain ⟨id, hmem⟩ := mem_map_fst_iff.1 hread
    simp only [outcomeBeside, outcome, hvalid, Bool.true_eq_false, if_false, Bool.false_or,
      decide_eq_true hread, if_true, Bool.not_true, Bool.and_false, Bool.false_eq_true]
    rw [perform_openNamespace_of_closed hvalid hopen, (hm.liveClosed?_eq_some_iff hopen).2 hmem]
    refine ⟨h.addOwner id, db.withOpen name id, rfl, rfl, fun _ => isOpen_withOpen, ?_, hr.below⟩
    exact hm.withOpen hvalid hopen (hm.staffed.addOwner (.inr (List.mem_append_left _ hmem)))
      (faithful_recount (· + 1) (fun n => n) hm.faithful id)
      (fun hstray => (hm.apart name id hstray).2.2 hmem)
  · have hunread : ∀ id, (name, id) ∉ held := fun id hmem => hread (mem_map_fst_iff.2 ⟨id, hmem⟩)
    rw [decide_eq_false hread]
    obtain ⟨h', hopened⟩ := hr.openNamespace_of_unread f hvalid hopen hunread
    refine ⟨h', ?_⟩
    split at hopened
    · exact hopened
    · obtain ⟨id, hperform, hruns⟩ := hopened
      exact ⟨_, hperform, rfl, fun _ => isOpen_withOpen, hruns⟩

/-! ## Closing -/

/-- A namespace is forgotten where it was not read, and what is still live stays remembered. -/
theorem Manages.prune (hm : Manages loc db h held strays) :
    Manages loc { db with closed := db.closed.filter fun e => h.isLive e.2 } h held strays where
  staffed := hm.staffed
  names := hm.names
  valid := hm.valid
  remembered name id hmem hclosed :=
    lookup_filter (hm.remembered name id hmem hclosed)
      (hm.staffed.isLive (.inr (List.mem_append_left _ hmem)))
  forgotten name id hmem := hm.forgotten name id (List.mem_filter.1 hmem).1
  faithful name id hmem := hm.faithful name id (List.mem_filter.1 hmem).1
  apart name id hmem := by
    obtain ⟨hopened, hentry, hread⟩ := hm.apart name id hmem
    exact ⟨hopened, fun hmem' => hentry (List.mem_filter.1 hmem').1, hread⟩

theorem isOpen_without (closed : Holders) :
    isOpen { db with opened := without name db.opened, closed } other =
      (decide (other ≠ name) && db.isOpen other) := by
  rw [Bool.eq_iff_iff, Bool.and_eq_true, decide_eq_true_eq, isOpen_iff, isOpen_iff,
    mem_map_fst_iff, mem_map_fst_iff]
  constructor
  · rintro ⟨id, hmem⟩
    obtain ⟨hmem', hne⟩ := mem_without_iff.1 hmem
    exact ⟨hne, id, hmem'⟩
  · rintro ⟨hne, id, hmem⟩
    exact ⟨id, mem_without_iff.2 ⟨hmem, hne⟩⟩

/-- An open namespace that is closed is remembered if it is read. -/
theorem Manages.forget (hm : Manages loc db h held strays) (hmem : (name, id) ∈ db.opened) :
    Manages loc { db with
      opened := without name db.opened
      closed := if h.hasReader id then (name, id) :: without name db.closed else db.closed }
      (h.dropOwner id) held strays where
  staffed := (hm.staffed.perm (perm_without hm.names hmem) (.refl _)).dropOwner
  names := hm.names.sublist (List.filter_sublist.map _)
  valid other id' hmem' := hm.valid other id' (mem_without_iff.1 hmem').1
  remembered other id' hread hclosed := by
    rw [isOpen_without] at hclosed
    by_cases hname : other = name
    · -- Whoever reads the namespace reads the engine that it was open on.
      subst hname
      have hread' := List.mem_append_left strays hread
      obtain rfl := hm.staffed.id_unique (.inl hmem) (.inr hread')
      simp only [if_pos ((hm.staffed.hasReader_eq (.inl hmem)).2 hread'), List.lookup_cons,
        beq_self_eq_true]
    · rw [decide_eq_true hname, Bool.true_and] at hclosed
      have hlookup := hm.remembered other id' hread hclosed
      split
      · rw [List.lookup_cons, beq_eq_false_iff_ne.2 hname]
        exact lookup_filter hlookup (by simpa using hname)
      · exact hlookup
  forgotten other id' hmem' := by
    rw [isOpen_without]
    split at hmem'
    · rcases List.mem_cons.1 hmem' with heq | hold
      · cases heq
        simp
      · rw [hm.forgotten other id' (mem_without_iff.1 hold).1, Bool.and_false]
    · rw [hm.forgotten other id' hmem', Bool.and_false]
  faithful := by
    -- The engine that is remembered now is the one that the namespace was open on.
    refine faithful_recount (· - 1) (fun n => n) ?_ id
    intro other id' hmem'
    split at hmem'
    · rcases List.mem_cons.1 hmem' with heq | hold
      · cases heq
        obtain ⟨e, hlive, hid, hplace⟩ := hm.staffed.live name id (.inl hmem)
        refine ⟨hid ▸ hm.staffed.known e hlive, ?_⟩
        intro e' hlive' heq'
        rw [hm.staffed.alone e hlive name hplace e' hlive' (.inl (heq'.trans hid.symm))]
        exact hplace
      · exact hm.faithful other id' (mem_without_iff.1 hold).1
    · exact hm.faithful other id' hmem'
  apart other id' hstray := by
    obtain ⟨hopened, hentry, hread⟩ := hm.apart other id' hstray
    refine ⟨fun hmem' => hopened (mem_without_iff.1 hmem').1, ?_, hread⟩
    intro hmem'
    split at hmem'
    · rcases List.mem_cons.1 hmem' with heq | hold
      · cases heq
        exact hopened hmem
      · exact hentry (mem_without_iff.1 hold).1
    · exact hentry hmem'

/-- Closing a namespace leaves the other ones open, and what the disk holds. -/
theorem Manages.closeNamespace (hm : Manages loc db h held strays) (name : String) :
    ∃ db' h', db.closeNamespace name h = (db', h') ∧ Manages loc db' h' held strays ∧
      db'.root = db.root ∧ h'.disk = h.disk ∧
      ∀ other, db'.isOpen other = (decide (other ≠ name) && db.isOpen other) := by
  -- Closing forgets first what is no longer live, also where the namespace is not open.
  have hpruned := hm.prune
  cases hopen : db.isOpen name with
  | false =>
    refine ⟨_, h, ?_, hpruned, rfl, rfl, ?_⟩
    · simp only [Database.closeNamespace, engineOf?_of_not_isOpen hopen]
    · intro other
      show db.isOpen other = _
      by_cases heq : other = name
      · simp [heq, hopen]
      · simp [heq]
  | true =>
    obtain ⟨id, hid, hmem⟩ := engineOf?_of_isOpen hopen
    refine ⟨_, h.dropOwner id, ?_, hpruned.forget hmem, rfl, rfl, fun _ => isOpen_without _⟩
    simp only [Database.closeNamespace, hid]

/-! ## Readers -/

theorem Manages.addReader (hm : Manages loc db h held strays) (hmem : (name, id) ∈ db.opened) :
    Manages loc db (Reader.make h id).2 ((name, id) :: held) strays where
  staffed := hm.staffed.addReader (.inl hmem)
  names := hm.names
  valid := hm.valid
  remembered other id' hread hclosed := by
    rcases List.mem_cons.1 hread with heq | hold
    · cases heq
      -- The namespace that is read is open.
      exact absurd hmem (not_mem_opened hclosed)
    · exact hm.remembered other id' hold hclosed
  forgotten := hm.forgotten
  faithful := faithful_recount (fun n => n) (· + 1) hm.faithful id
  apart other id' hstray := by
    obtain ⟨hopened, hentry, hread⟩ := hm.apart other id' hstray
    refine ⟨hopened, hentry, ?_⟩
    intro hmem'
    rcases List.mem_cons.1 hmem' with heq | hold
    · cases heq
      exact hopened hmem
    · exact hread hold

theorem Manages.dropReader {r : Reader}
    (hm : Manages loc db h ((name, r.engine) :: held) strays) :
    Manages loc db (r.drop h) held strays where
  staffed := hm.staffed.dropReader
  names := hm.names
  valid := hm.valid
  remembered other id' hread hclosed :=
    hm.remembered other id' (List.mem_cons_of_mem _ hread) hclosed
  forgotten := hm.forgotten
  faithful := faithful_recount (fun n => n) (· - 1) hm.faithful r.engine
  apart other id' hstray := by
    obtain ⟨hopened, hentry, hread⟩ := hm.apart other id' hstray
    exact ⟨hopened, hentry, fun hmem => hread (List.mem_cons_of_mem _ hmem)⟩

theorem Manages.dropStray {r : Reader}
    (hm : Manages loc db h held ((name, r.engine) :: strays)) :
    Manages loc db (r.drop h) held strays where
  staffed := (hm.staffed.perm (.refl _) List.perm_middle).dropReader
  names := hm.names
  valid := hm.valid
  remembered := hm.remembered
  forgotten := hm.forgotten
  faithful := faithful_recount (fun n => n) (· - 1) hm.faithful r.engine
  apart other id' hstray := hm.apart other id' (List.mem_cons_of_mem _ hstray)

/-! ## Contents -/

/-- What an open namespace shows is what the disk stores for it. -/
theorem Runs.contents_eq (hr : Runs loc db h held strays tables) (hmem : (name, id) ∈ db.opened) :
    h.contents id = tables name := by
  obtain ⟨e, -, hfind, -, hplace⟩ := hr.manages.staffed.engine?_eq (.inl hmem)
  rw [Host.contents, hfind]
  simp only [hplace]
  exact hr.below.stores.contentsAt_eq name

/-- What is written to an open namespace, the disk stores for it; the other ones keep theirs. -/
theorem Runs.setContents (hr : Runs loc db h held strays tables) (hmem : (name, id) ∈ db.opened)
    (c : Contents) :
    Runs loc db (h.setContents id c) held strays (Function.update tables name c) := by
  obtain ⟨e, -, hfind, -, hplace⟩ := hr.manages.staffed.engine?_eq (.inl hmem)
  -- The engine is found by its identity, and stands where the namespace has its place.
  have hset : h.setContents id c = h.setContentsAt (place loc name) c := by
    rw [Host.setContents, hfind]
    simp only [hplace]
  rw [hset]
  refine ⟨hr.manages.of_engines rfl rfl, ?_, ?_⟩
  · exact hr.below.rooted.of_keeps (hr.below.stores.keepsDirectories_setContentsAt name c)
  · exact hr.below.stores.setContentsAt name c

/-! ## Making and dropping -/

/-- Whether the directory of a database that is not there stores contents, and stray readers alone
    hold engines in it. -/
structure Idle (root : String) (loc : Location) (h : Host) (strays : Holders)
    (tables : String → Contents) : Prop where
  made : (h.disk.makeDirectories root).1 = .ok ()
  below : Below root loc (h.disk.makeDirectories root).2 tables
  staffed : Staffed loc h [] strays

/-- The directory stays idle when a stray reader is dropped. -/
theorem Idle.dropStray {r : Reader} (hi : Idle root loc h ((name, r.engine) :: strays) tables) :
    Idle root loc (r.drop h) strays tables :=
  ⟨hi.made, hi.below, hi.staffed.dropReader⟩

theorem Idle.perm (hi : Idle root loc h strays tables) (hperm : strays.Perm strays') :
    Idle root loc h strays' tables :=
  ⟨hi.made, hi.below, hi.staffed.perm (.refl _) hperm⟩

theorem Runs.perm (hr : Runs loc db h held strays tables) (hperm : held.Perm held')
    (hperm' : strays.Perm strays') : Runs loc db h held' strays' tables :=
  ⟨hr.manages.perm hperm hperm', hr.below⟩

/-- A database without open namespaces and readers leaves its directory idle. -/
theorem Runs.idle (hr : Runs loc db h [] strays tables) (hopened : db.opened = []) :
    Idle db.root loc h strays tables := by
  have hmade := hr.below.rooted.made
  refine ⟨?_, ?_, ?_⟩
  · rw [hmade]
  · rw [hmade]
    exact hr.below
  · have hstaffed := hr.manages.staffed
    rw [hopened] at hstaffed
    exact hstaffed

/-- Making a database makes its directory and opens one namespace. -/
theorem Idle.create (hi : Idle root loc h strays tables) (f : Fault) :
    ∃ h', match outcomeBeside root f defaultNamespace false false
          (decide (defaultNamespace ∈ strays.map Prod.fst)) with
      | .error e =>
        (Database.create f root).perform h = (.error e, h') ∧ Idle root loc h' strays tables
      | .ok () => ∃ db, (Database.create f root).perform h = (.ok db, h') ∧ db.root = root ∧
          (∀ name, db.isOpen name = decide (name = defaultNamespace)) ∧
          Runs loc db h' [] strays tables := by
  have hmake := perform_makeDirectory h root
  rw [hi.made] at hmake
  have hstaffed : Staffed loc { h with disk := (h.disk.makeDirectories root).2 } [] strays :=
    hi.staffed.of_engines rfl rfl
  have hruns : Runs loc ⟨root, [], []⟩ { h with disk := (h.disk.makeDirectories root).2 } []
      strays tables := ⟨manages_of_staffed hstaffed root, hi.below⟩
  obtain ⟨h', hopen⟩ := hruns.openNamespace f defaultNamespace
  have hcreate : (Database.create f root).perform h =
      (Database.openNamespace f ⟨root, [], []⟩ defaultNamespace).perform
        { h with disk := (h.disk.makeDirectories root).2 } := by
    unfold Database.create
    exact Action.perform_bind_of_ok hmake
  have hflags : outcomeBeside root f defaultNamespace
      (isOpen ⟨root, [], []⟩ defaultNamespace)
      (decide (defaultNamespace ∈ ([] : Holders).map Prod.fst))
      (decide (defaultNamespace ∈ strays.map Prod.fst)) =
      outcomeBeside root f defaultNamespace false false
        (decide (defaultNamespace ∈ strays.map Prod.fst)) := rfl
  rw [hflags] at hopen
  rw [hcreate]
  refine ⟨h', ?_⟩
  split at hopen
  · exact ⟨hopen.1, hopen.2.idle rfl⟩
  · obtain ⟨db, hperform, hroot, hisOpen, hruns'⟩ := hopen
    refine ⟨db, hperform, hroot, ?_, hruns'⟩
    intro name
    exact (hisOpen name).trans (Bool.or_false _)

/-- A database that is closed holds no engine; readers keep theirs. -/
theorem Staffed.close {opened : Holders} (hs : Staffed loc h opened held) :
    Staffed loc (opened.foldl (fun h e => h.dropOwner e.2) h) [] held := by
  induction opened generalizing h with
  | nil => exact hs
  | cons entry opened ih => exact ih hs.dropOwner

theorem disk_close (db : Database) (h : Host) : (db.close h).disk = h.disk := by
  unfold close
  generalize db.opened = opened
  induction opened generalizing h with
  | nil => rfl
  | cons entry opened ih => exact ih (h.dropOwner entry.2)

/-- A database that is dropped leaves its readers behind as stray ones. -/
theorem Runs.close (hr : Runs loc db h held strays tables) :
    Idle db.root loc (db.close h) (held ++ strays) tables := by
  have hdisk := disk_close db h
  have hmade := hr.below.rooted.made
  refine ⟨?_, ?_, hr.manages.staffed.close⟩
  · rw [hdisk, hmade]
  · rw [hdisk, hmade]
    exact hr.below

end ReplicaStore.Database
