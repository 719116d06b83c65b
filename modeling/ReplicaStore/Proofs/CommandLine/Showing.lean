import ReplicaStore.Proofs.CommandLine.Layout
import ReplicaStore.Proofs.Log.Recovery
import ReplicaStore.Proofs.Metadata.Store
import ReplicaStore.Proofs.Namespace.Session

/-! # What a data directory shows

    Opening the log, the metadata or a namespace of a data directory shows what stands there. What
    it shows is told by a few places below the directory, and only by what each of them looks like
    to who opens it; so it is the same on a disk in which such places were furnished.

    * `Action.shown`, `Action.Finds`: what an action shows, and what it leaves alone.
    * `shownLog`, `shownMetadata`, `shownNamespace`: what a data directory shows.
    * `shownLog_congr`, `shownMetadata_congr`, `shownNamespace_congr`: alike disks show the same. -/

namespace ReplicaStore

open Disk Host

/-! ## What an action shows -/

namespace Action

variable {σ α β γ δ : Type} {frame : σ → σ → Prop} {a : Action σ α} {g : α → Action σ β}
  {view : α → σ → γ} {view' : β → σ → δ} {s t : σ} {found : Except Error γ}

/-- What an action shows: its result, looked at in the state that the action leaves. -/
def shown (a : Action σ α) (view : α → σ → γ) (s : σ) : Except Error γ :=
  (a.perform s).1.map fun x => view x (a.perform s).2

/-- Whether an action shows what was found, and changes a state within a frame only. -/
structure Finds (frame : σ → σ → Prop) (a : Action σ α) (view : α → σ → γ) (s : σ)
    (found : Except Error γ) : Prop where
  framed : frame s (a.perform s).2
  shows : a.shown view s = found

theorem Finds.of_perform {r : Except Error α} (h : a.perform s = (r, t)) (hframe : frame s t)
    (hshows : (r.map fun x => view x t) = found) : Finds frame a view s found := by
  constructor
  · rw [h]
    exact hframe
  · unfold shown
    rw [h]
    exact hshows

/-- Two actions, one after the other: the second is found from what the first shows. -/
theorem Finds.bind {next : γ → Except Error δ} (h : Finds frame a view s found)
    (htrans : ∀ s₁ s₂ s₃, frame s₁ s₂ → frame s₂ s₃ → frame s₁ s₃)
    (hnext : ∀ x t, a.perform s = (.ok x, t) → frame s t →
      Finds frame (g x) view' t (next (view x t))) :
    Finds frame (a >>= g) view' s (found >>= next) := by
  have hframe := h.framed
  have hshows := h.shows
  unfold shown at hshows
  cases hperform : a.perform s with
  | mk r t =>
  rw [hperform] at hframe hshows
  rw [← hshows]
  -- The second action only runs if the first one has shown something, so the frames meet in the
  -- state that it left.
  cases r with
  | error e => exact .of_perform (perform_bind_of_error hperform) hframe rfl
  | ok x =>
    have hx := hnext x t hperform hframe
    have hboth := perform_bind_of_ok (f := g) hperform
    constructor
    · rw [hboth]
      exact htrans s t _ hframe hx.framed
    · show shown (a >>= g) view' s = next (view x t)
      rw [← hx.shows]
      unfold shown
      rw [hboth]

end Action

namespace CommandLine

open Config (metadataDirectoryName databaseDirectoryName)
open Metadata (termFileName voteFileName rootFileName)

variable {d d' : Disk} {h h' : Host} {base : Location} {root name : String} {rel : List String}
  {plan : Plan} {look look' : List String → Option Node}

/-! ## What is furnished -/

/-- What is furnished below a directory of a host. -/
def Furnishes (base : Location) (h h' : Host) : Prop :=
  Furnished storePlan base h.disk h'.disk

theorem Furnishes.trans {h₁ h₂ h₃ : Host} (h : Furnishes base h₁ h₂) (h' : Furnishes base h₂ h₃) :
    Furnishes base h₁ h₃ :=
  Furnished.trans h h'

/-! ## Directories -/

/-- Making a directory of the data directory. -/
theorem finds_makeDirectory (hr : Rooted root base d) (hname : Path.IsPlain name)
    (hplan : storePlan [name] = some .directory) :
    (Metadata.makeDirectory (Path.join root name)).Finds (Furnished storePlan base)
      (fun _ _ => ()) d
      ((making (Path.join root name) name (standing base d [name])).mapError Error.io) := by
  obtain ⟨d', hmake, hfurnished, -, -⟩ :=
    (rooted_below hr).makeDirectories_furnished hname (.inl hplan)
  have hperform := Metadata.perform_makeDirectory d (Path.join root name)
  rw [hmake] at hperform
  -- The view forgets the result; what is left to show is which error came.
  apply Action.Finds.of_perform hperform hfurnished
  show Except.map _ ((making _ _ (standing base d [name])).mapError Error.io) = _
  cases making (Path.join root name) name (standing base d [name]) with
  | error e => rfl
  | ok u => rfl

/-- A directory that was made can be furnished itself. -/
theorem rooted_of_makeDirectories (hr : Rooted root base d) (hname : Path.IsPlain name)
    (hplan : storePlan [name] = some .directory)
    (hmade : (d.makeDirectories (Path.join root name)).1 = .ok ()) :
    Rooted (Path.join root name) (base ++ [name]) (d.makeDirectories (Path.join root name)).2 := by
  obtain ⟨d', hmake, -, hrooted, -⟩ :=
    (rooted_below hr).makeDirectories_furnished hname (.inl hplan)
  rw [hmake] at hmade ⊢
  exact hrooted hmade

theorem finds_onDisk {α β : Type} {a : Action Disk α} {view : α → Disk → β}
    {found : Except Error β} (hfinds : a.Finds (Furnished storePlan base) view h.disk found) :
    (Host.onDisk a).Finds (Furnishes base) (fun x h => view x h.disk) h found :=
  ⟨hfinds.framed, hfinds.shows⟩

/-- On a host, the directory is made, and no engine is opened or closed. -/
theorem rooted_of_perform_onDisk (hr : Rooted root base h.disk) (hname : Path.IsPlain name)
    (hplan : storePlan [name] = some .directory) {u : Unit}
    (hperform : (Host.onDisk (Metadata.makeDirectory (Path.join root name))).perform h =
      (.ok u, h')) :
    Rooted (Path.join root name) (base ++ [name]) h'.disk ∧ h'.engines = h.engines := by
  obtain ⟨hmade, rfl⟩ := Prod.mk.inj hperform
  exact ⟨rooted_of_makeDirectories hr hname hplan (eq_ok_of_mapError hmade), rfl⟩

/-! ## The log -/

/-- What a log shows, by what stands below the data directory. -/
def logFound (root : String) (look : List String → Option Node) : Except Error OperationLog := do
  (making (Path.join root LogHandle.directoryName) LogHandle.directoryName
    (look [LogHandle.directoryName])).mapError .io
  let contents ←
    (openingEngine (Path.join (Path.join root LogHandle.directoryName) engineFileName)
      (look [LogHandle.directoryName, engineFileName])).mapError .engine
  OperationLog.openOn .none contents

theorem logFound_congr (h : SameLook look look') (root : String) :
    logFound root look = logFound root look' := by
  have hdirectory : Fixture.directory.Alike (look [LogHandle.directoryName])
      (look' [LogHandle.directoryName]) := h [] LogHandle.directoryName
  have hengine : Fixture.engine.Alike (look [LogHandle.directoryName, engineFileName])
      (look' [LogHandle.directoryName, engineFileName]) :=
    h [LogHandle.directoryName] engineFileName
  unfold logFound
  rw [making_congr hdirectory, openingEngine_congr hengine]

/-- An engine that was opened holds what was found in its file. -/
theorem contents_opened {loc : Location} {c : Contents} (hnode : d.node? loc = some (.engine c))
    (id next : EngineId) (others : List LiveEngine) :
    Host.contents ⟨d, ⟨id, loc, 1, 0⟩ :: others, next⟩ id = c := by
  simp only [Host.contents, Host.engine?, List.find?_cons_of_pos, decide_true, contentsAt, hnode]

theorem free_of_no_engines (hengines : h.engines = []) (loc : Location) : Free loc h.engines := by
  intro e hmem
  rw [hengines] at hmem
  cases hmem

/-- Opening the engine of a directory of the store. -/
theorem finds_openEngine {directory : String} (hr : Rooted directory (base ++ rel) h.disk)
    (hplan : storePlan (rel ++ [engineFileName]) = some .engine) (hengines : h.engines = []) :
    (Host.openEngine .none directory).Finds (Furnishes base) (fun id h => h.contents id) h
      ((openingEngine (Path.join directory engineFileName)
        (standing base h.disk (rel ++ [engineFileName]))).mapError Error.engine) := by
  have hfree := free_of_no_engines hengines (base ++ (rel ++ [engineFileName]))
  -- A failure leaves no engine open; otherwise the engine holds what was found in its file.
  obtain ⟨d', hopen, hfurnished, hnode, -⟩ := hr.perform_openEngine hplan hfree
  cases hfound : openingEngine (Path.join directory engineFileName)
      (standing base h.disk (rel ++ [engineFileName])) with
  | error e =>
    have hopen' := hopen.trans (congrArg (opened · _ h d') hfound)
    exact .of_perform hopen' hfurnished rfl
  | ok c =>
    have hopen' := hopen.trans (congrArg (opened · _ h d') hfound)
    apply Action.Finds.of_perform hopen' hfurnished
    exact congrArg Except.ok (contents_opened (hnode c hfound) _ _ _)

/-- Opening the log of a data directory. -/
theorem finds_openBelow (hr : Rooted root base h.disk) (hengines : h.engines = []) :
    (LogHandle.openBelow .none root).Finds (Furnishes base) LogHandle.log h
      (logFound root (standing base h.disk)) := by
  have hname : Path.IsPlain LogHandle.directoryName := by decide
  unfold LogHandle.openBelow logFound
  apply (finds_onDisk (finds_makeDirectory hr hname rfl)).bind fun _ _ _ => Furnishes.trans
  intro u h₁ hmade hframe₁
  obtain ⟨hr₁, hengines₁⟩ := rooted_of_perform_onDisk hr hname rfl hmade
  -- Making the directory has changed the look of no place.
  have hlook := (looksAlike_of_furnished hframe₁).sameLook base
  have hengine : Fixture.engine.Alike
      (standing base h.disk [LogHandle.directoryName, engineFileName])
      (standing base h₁.disk [LogHandle.directoryName, engineFileName]) :=
    hlook [LogHandle.directoryName] engineFileName
  rw [openingEngine_congr hengine]
  -- The engine is open on the host from here on; when its contents are no log, the owner is dropped
  -- again, and the disk stays.
  apply (finds_openEngine hr₁ rfl (hengines₁.trans hengines)).bind fun _ _ _ => Furnishes.trans
  intro id h₂ _ _
  cases hlog : OperationLog.openOn .none (h₂.contents id) with
  | error e =>
    apply Action.Finds.of_perform (r := .error e) (t := h₂.dropOwner id)
    · simp only [Action.perform, hlog]
    · exact Furnished.refl storePlan base h₂.disk
    · rfl
  | ok log =>
    obtain ⟨n, term, -, rfl⟩ := OperationLog.openOn_eq_ok_iff.1 hlog
    apply Action.Finds.of_perform (t := h₂)
      (r := .ok ⟨Path.join root LogHandle.directoryName, id, n, term⟩)
    · simp only [Action.perform, hlog]
    · exact Furnished.refl storePlan base h₂.disk
    · rfl

def shownLog (c : Config) (h : Host) : Except Error OperationLog :=
  (LogHandle.openBelow .none c.logPath).shown LogHandle.log h

/-- On a disk that looks alike, the log shows the same. -/
theorem shownLog_congr {c : Config} (hr : Rooted c.dataDirectory base h.disk)
    (halike : LooksAlike h.disk h'.disk) (hengines : h.engines = []) (hengines' : h'.engines = []) :
    shownLog c h' = shownLog c h := by
  have hr' := hr.of_keeps halike.keeps
  have hlook := halike.sameLook base
  calc shownLog c h'
    _ = logFound c.dataDirectory (standing base h'.disk) := (finds_openBelow hr' hengines').shows
    _ = logFound c.dataDirectory (standing base h.disk) := (logFound_congr hlook _).symm
    _ = shownLog c h := (finds_openBelow hr hengines).shows.symm

/-! ## The metadata -/

/-- What the replay of a record file shows, by what stands in its place. -/
def replaying {α : Type} (replay : List Bytes → Except Payload.Error α) (path : String)
    (n : Option Node) : Except Error α := do
  let payloads ← openingRecords path n
  (replay payloads).mapError (.malformedPayload path)

/-- What the three files of the metadata show, by what stands below the data directory. -/
def filesFound (directory : String) (look : List String → Option Node) :
    Except Error Metadata.View := do
  let term ← replaying Replay.term (Path.join directory termFileName)
    (look [metadataDirectoryName, termFileName])
  let votes ← replaying Replay.votes (Path.join directory voteFileName)
    (look [metadataDirectoryName, voteFileName])
  let root ← replaying Replay.root (Path.join directory rootFileName)
    (look [metadataDirectoryName, rootFileName])
  return ⟨term, votes, root⟩

/-- What the metadata show, by what stands below the data directory. -/
def metadataFound (root : String) (look : List String → Option Node) :
    Except Error Metadata.View := do
  (making (Path.join root metadataDirectoryName) metadataDirectoryName
    (look [metadataDirectoryName])).mapError .io
  filesFound (Path.join root metadataDirectoryName) look

theorem replaying_congr {α : Type} {n n' : Option Node} (h : Fixture.records.Alike n n')
    (replay : List Bytes → Except Payload.Error α) (path : String) :
    replaying replay path n = replaying replay path n' := by
  unfold replaying
  rw [openingRecords_congr h]

theorem SameLook.records (h : SameLook look look') (hmem : name ∈ recordsNames) :
    Fixture.records.Alike (look [metadataDirectoryName, name])
      (look' [metadataDirectoryName, name]) := by
  rw [← fixtureNamed_of_mem hmem]
  exact h [metadataDirectoryName] name

theorem filesFound_congr (h : SameLook look look') (directory : String) :
    filesFound directory look = filesFound directory look' := by
  have hterm : termFileName ∈ recordsNames := by decide
  have hvote : voteFileName ∈ recordsNames := by decide
  have hroot : rootFileName ∈ recordsNames := by decide
  unfold filesFound
  rw [replaying_congr (h.records hterm), replaying_congr (h.records hvote),
    replaying_congr (h.records hroot)]

theorem metadataFound_congr (h : SameLook look look') (root : String) :
    metadataFound root look = metadataFound root look' := by
  have hdirectory : Fixture.directory.Alike (look [metadataDirectoryName])
      (look' [metadataDirectoryName]) := h [] metadataDirectoryName
  unfold metadataFound
  rw [making_congr hdirectory, filesFound_congr h]

theorem isPlain_of_mem (hmem : name ∈ recordsNames) :
    Path.IsPlain name ∧ Path.isTooLong name = false := by
  revert name
  decide

theorem storePlan_of_mem (hmem : name ∈ recordsNames) :
    storePlan ([metadataDirectoryName] ++ [name]) = some .records := by
  revert name
  decide

/-- Replaying a record file of the metadata. -/
theorem finds_replayFile {α : Type} {directory : String}
    (hr : Rooted directory (base ++ [metadataDirectoryName]) d) (hmem : name ∈ recordsNames)
    (replay : List Bytes → Except Payload.Error α) :
    (Metadata.replayFile (Path.join directory name) replay).Finds (Furnished storePlan base)
      (fun x _ => x.2) d
      (replaying replay (Path.join directory name)
        (standing base d [metadataDirectoryName, name])) := by
  obtain ⟨hname, hshort⟩ := isPlain_of_mem hmem
  obtain ⟨hshown, hfurnished⟩ := hr.openAt_furnished hname hshort (storePlan_of_mem hmem)
  have hopen : (RecordFile.openAt (Path.join directory name)).Finds (Furnished storePlan base)
      (fun x _ => x.2) d (openingRecords (Path.join directory name)
        (standing base d [metadataDirectoryName, name])) := ⟨hfurnished, hshown⟩
  unfold Metadata.replayFile replaying
  apply hopen.bind fun _ _ _ => Furnished.trans
  rintro ⟨file, payloads⟩ d' _ _
  show Action.Finds _ _ _ d' ((replay payloads).mapError _)
  -- Both ways of the replay leave the file as it was opened.
  cases hreplay : replay payloads with
  | error e =>
    apply Action.Finds.of_perform (r := .error (.malformedPayload (Path.join directory name) e))
    · simp only [hreplay]
      rfl
    · exact Furnished.refl storePlan base d'
    · rfl
  | ok a =>
    apply Action.Finds.of_perform (r := .ok (file, a))
    · simp only [hreplay]
      rfl
    · exact Furnished.refl storePlan base d'
    · rfl

/-- Opening the files of the metadata. -/
theorem finds_openFiles {directory : String}
    (hr : Rooted directory (base ++ [metadataDirectoryName]) d) :
    (Metadata.openFiles directory).Finds (Furnished storePlan base) (fun m _ => m.view) d
      (filesFound directory (standing base d)) := by
  have hterm : termFileName ∈ recordsNames := by decide
  have hvote : voteFileName ∈ recordsNames := by decide
  have hroot : rootFileName ∈ recordsNames := by decide
  unfold Metadata.openFiles filesFound
  apply (finds_replayFile hr hterm Replay.term).bind fun _ _ _ => Furnished.trans
  rintro ⟨termFile, term⟩ d₁ _ hframe₁
  -- What opening the first file cut off does not show in the other two.
  have hlook₁ := (looksAlike_of_furnished hframe₁).sameLook base
  rw [replaying_congr (hlook₁.records hvote), replaying_congr (hlook₁.records hroot)]
  apply (finds_replayFile (hr.of_keeps hframe₁.keeps) hvote Replay.votes).bind
    fun _ _ _ => Furnished.trans
  rintro ⟨voteFile, votes⟩ d₂ _ hframe₂
  have hlook₂ := (looksAlike_of_furnished hframe₂).sameLook base
  rw [replaying_congr (hlook₂.records hroot)]
  apply (finds_replayFile ((hr.of_keeps hframe₁.keeps).of_keeps hframe₂.keeps) hroot
    Replay.root).bind fun _ _ _ => Furnished.trans
  rintro ⟨rootFile, root⟩ d₃ _ _
  exact .of_perform rfl (Furnished.refl storePlan base d₃) rfl

/-- Opening the metadata of a data directory. -/
theorem finds_openAt (hr : Rooted root base d) :
    (Metadata.openAt (Path.join root metadataDirectoryName)).Finds (Furnished storePlan base)
      (fun m _ => m.view) d (metadataFound root (standing base d)) := by
  have hname : Path.IsPlain metadataDirectoryName := by decide
  rw [Metadata.openAt_eq]
  unfold metadataFound
  apply (finds_makeDirectory hr hname rfl).bind fun _ _ _ => Furnished.trans
  intro u d' hmade hframe
  obtain ⟨hmade', rfl⟩ := Prod.mk.inj hmade
  have hr' := rooted_of_makeDirectories hr hname rfl (eq_ok_of_mapError hmade')
  have hlook := (looksAlike_of_furnished hframe).sameLook base
  rw [filesFound_congr hlook]
  exact finds_openFiles hr'

def shownMetadata (c : Config) (h : Host) : Except Error Metadata.View :=
  (Host.onDisk (Metadata.openAt c.metadataPath)).shown (fun m _ => m.view) h

/-- On a disk that looks alike, the metadata show the same. -/
theorem shownMetadata_congr {c : Config} (hr : Rooted c.dataDirectory base h.disk)
    (halike : LooksAlike h.disk h'.disk) : shownMetadata c h' = shownMetadata c h := by
  have hr' := hr.of_keeps halike.keeps
  have hlook := halike.sameLook base
  calc shownMetadata c h'
    _ = metadataFound c.dataDirectory (standing base h'.disk) := (finds_openAt hr').shows
    _ = metadataFound c.dataDirectory (standing base h.disk) := (metadataFound_congr hlook _).symm
    _ = shownMetadata c h := (finds_openAt hr).shows.symm

/-! ## The namespaces -/

/-- Where the directory of a namespace stands below the data directory. -/
def directoryPlace (name : String) : List String :=
  [databaseDirectoryName, Database.directoryName name]

/-- Where the engine file of a namespace stands below the data directory. -/
def enginePlace (name : String) : List String :=
  [databaseDirectoryName, Database.directoryName name, engineFileName]

/-- What the engine of a namespace shows, by what stands below the data directory. -/
def engineOfNamespace (root name : String) (look : List String → Option Node) :
    Except EngineError Contents :=
  openingBelow (Path.join root databaseDirectoryName) (Database.directoryName name)
    (look (directoryPlace name)) (look (enginePlace name))

theorem engineOfNamespace_congr (h : SameLook look look') (root name : String) :
    engineOfNamespace root name look = engineOfNamespace root name look' := by
  have hdirectory : Fixture.directory.Alike (look (directoryPlace name))
      (look' (directoryPlace name)) := by
    rw [← fixtureNamed_directoryName name]
    exact h [databaseDirectoryName] (Database.directoryName name)
  have hengine : Fixture.engine.Alike (look (enginePlace name)) (look' (enginePlace name)) :=
    h (directoryPlace name) engineFileName
  unfold engineOfNamespace
  rw [openingBelow_congr hdirectory hengine]

/-- What is left of opening a namespace: the database has it open, if its engine was found. -/
def openedNamespace (db : Database) (name : String) (loc : Location)
    (found : Except EngineError Contents) (h : Host) (d : Disk) : Except Error Database × Host :=
  match found with
  | .error e => (.error (.engine e), { h with disk := d })
  | .ok _ => (.ok (db.withOpen name h.nextEngine),
      ⟨d, ⟨h.nextEngine, loc, 1, 0⟩ :: h.engines, h.nextEngine + 1⟩)

/-- Opening a namespace that is not open, and that no one has open elsewhere. -/
theorem perform_openNamespace {db : Database}
    (hr : Rooted (Path.join root databaseDirectoryName) (base ++ [databaseDirectoryName]) h.disk)
    (hroot : db.root = Path.join root databaseDirectoryName) (hforgotten : db.closed = [])
    (hclosed : db.isOpen name = false) (hvalid : Database.isValidName name = true)
    (hdirectory : plan (directoryPlace name) = some .directory ∨
      standing base h.disk (directoryPlace name) = some .directory)
    (hengine : plan (enginePlace name) = some .engine)
    (hfree : Free (base ++ enginePlace name) h.engines) :
    ∃ d', (db.openNamespace .none name).perform h =
        openedNamespace db name (base ++ enginePlace name)
          (engineOfNamespace root name (standing base h.disk)) h d' ∧
      Furnished plan base h.disk d' ∧
      (∀ c, engineOfNamespace root name (standing base h.disk) = .ok c →
        standing base d' (directoryPlace name) = some .directory ∧
          standing base d' (enginePlace name) = some (.engine c)) ∧
      ∀ c, standing base h.disk (directoryPlace name) = some .directory →
        standing base h.disk (enginePlace name) = some (.engine c) → d' = h.disk := by
  have hname := Database.isPlain_directoryName hvalid
  obtain ⟨d', hopen, hfurnished, hnodes, hsame⟩ :=
    hr.perform_openEngine_join hname hdirectory hengine hfree
  refine ⟨d', ?_, hfurnished, hnodes, hsame⟩
  -- No closed namespace is remembered, so the engine cannot come from one: it is opened from its
  -- file.
  have hnone : db.liveClosed? h name = none := by
    unfold Database.liveClosed?
    rw [hforgotten]
    rfl
  rw [Database.perform_openNamespace_of_closed hvalid hclosed, hnone]
  show ((do
    let id ← Host.openEngine .none (Path.join db.root (Database.directoryName name))
    return db.withOpen name id : Action Host Database).perform h) = _
  rw [hroot]
  cases hfound : engineOfNamespace root name (standing base h.disk) with
  | error e => exact Action.perform_bind_of_error (hopen.trans (congrArg (opened · _ h d') hfound))
  | ok c => exact Action.perform_bind_of_ok (hopen.trans (congrArg (opened · _ h d') hfound))

/-- What the database shows of its default namespace, by what stands below the data directory. -/
def databaseFound (root : String) (look : List String → Option Node) : Except Error Contents := do
  (making (Path.join root databaseDirectoryName) databaseDirectoryName
    (look [databaseDirectoryName])).mapError .io
  (engineOfNamespace root Database.defaultNamespace look).mapError .engine

theorem databaseFound_congr (h : SameLook look look') (root : String) :
    databaseFound root look = databaseFound root look' := by
  have hdirectory : Fixture.directory.Alike (look [databaseDirectoryName])
      (look' [databaseDirectoryName]) := h [] databaseDirectoryName
  unfold databaseFound
  rw [making_congr hdirectory, engineOfNamespace_congr h]

/-- The database once it was opened, with its default namespace. -/
def openedDatabase (root : String) (id : EngineId) : Database :=
  ⟨Path.join root databaseDirectoryName, [(Database.defaultNamespace, id)], []⟩

/-- The host of a database that was opened. -/
def withDefault (h : Host) (base : Location) (d : Disk) : Host :=
  ⟨d, [⟨h.nextEngine, base ++ enginePlace Database.defaultNamespace, 1, 0⟩], h.nextEngine + 1⟩

/-- Whether a disk has all that an open database needs. -/
structure HasDatabase (base : Location) (d : Disk) (c : Contents) : Prop where
  root : standing base d [databaseDirectoryName] = some .directory
  directory : standing base d (directoryPlace Database.defaultNamespace) = some .directory
  engine : standing base d (enginePlace Database.defaultNamespace) = some (.engine c)

/-- What is left of opening the database: it is open with its default namespace, if that was
    found. -/
def databaseOpened (root : String) (base : Location) (found : Except Error Contents) (h : Host)
    (d : Disk) : Except Error Database × Host :=
  match found with
  | .error e => (.error e, { h with disk := d })
  | .ok _ => (.ok (openedDatabase root h.nextEngine), withDefault h base d)

/-- Opening the default namespace, once the directory of the database is there. -/
theorem perform_openDefault
    (hr : Rooted (Path.join root databaseDirectoryName) (base ++ [databaseDirectoryName]) h.disk)
    (hengines : h.engines = []) :
    ∃ d', ((⟨Path.join root databaseDirectoryName, [], []⟩ : Database).openNamespace .none
          Database.defaultNamespace).perform h =
        databaseOpened root base ((engineOfNamespace root Database.defaultNamespace
          (standing base h.disk)).mapError .engine) h d' ∧
      Furnished storePlan base h.disk d' ∧
      (∀ contents, engineOfNamespace root Database.defaultNamespace (standing base h.disk) =
        .ok contents → HasDatabase base d' contents) ∧
      ∀ contents, HasDatabase base h.disk contents → d' = h.disk := by
  have hfree := free_of_no_engines hengines (base ++ enginePlace Database.defaultNamespace)
  have hclosed : (Database.mk (Path.join root databaseDirectoryName) [] []).isOpen
      Database.defaultNamespace = false := rfl
  obtain ⟨d', hopen, hfurnished, hnodes, hsame⟩ :=
    perform_openNamespace hr rfl rfl hclosed (by decide) (.inl (rfl : storePlan _ = _)) rfl hfree
  refine ⟨d', ?_, hfurnished, ?_, ?_⟩
  · rw [hopen]
    cases engineOfNamespace root Database.defaultNamespace (standing base h.disk) with
    | error e => rfl
    | ok contents =>
      unfold openedNamespace
      rw [hengines]
      rfl
  · intro contents hfound
    obtain ⟨hdirectory, hengine⟩ := hnodes contents hfound
    exact ⟨(hr.of_keeps hfurnished.keeps).directory, hdirectory, hengine⟩
  · intro contents hthere
    exact hsame contents hthere.directory hthere.engine

/-- Opening the database of a data directory: what comes of it, and what it leaves. Where the
    database is there already, nothing changes. -/
theorem perform_openDatabase {c : Config} (hr : Rooted c.dataDirectory base h.disk)
    (hengines : h.engines = []) :
    ∃ d', (openDatabase c).perform h =
        databaseOpened c.dataDirectory base
          (databaseFound c.dataDirectory (standing base h.disk)) h d' ∧
      Furnished storePlan base h.disk d' ∧
      (∀ contents, databaseFound c.dataDirectory (standing base h.disk) = .ok contents →
        Rooted (Path.join c.dataDirectory databaseDirectoryName)
            (base ++ [databaseDirectoryName]) d' ∧
          HasDatabase base d' contents) ∧
      ∀ contents, HasDatabase base h.disk contents → d' = h.disk := by
  have hname : Path.IsPlain databaseDirectoryName := by decide
  obtain ⟨d₁, hmake, hfurnished₁, hrooted, hsame₁⟩ :=
    (rooted_below hr).makeDirectories_furnished hname (.inl (rfl : storePlan _ = _))
  have hmade := perform_makeDirectory h (Path.join c.dataDirectory databaseDirectoryName)
  rw [hmake] at hmade
  have hfound : databaseFound c.dataDirectory (standing base h.disk) =
      ((making (Path.join c.dataDirectory databaseDirectoryName) databaseDirectoryName
          (standing base h.disk [databaseDirectoryName])).mapError .io >>= fun _ =>
        (engineOfNamespace c.dataDirectory Database.defaultNamespace
          (standing base h.disk)).mapError .engine) := rfl
  unfold openDatabase Config.databasePath Database.create
  -- The directory of the database comes first: without it, neither the default namespace is looked
  -- for nor anything else made.
  cases hmaking : making (Path.join c.dataDirectory databaseDirectoryName) databaseDirectoryName
      (standing base h.disk [databaseDirectoryName]) with
  | error e =>
    have hfailed := hmade.trans (congrArg (fun r => (Except.mapError Error.io r, _)) hmaking)
    rw [hmaking] at hfound
    rw [hfound]
    exact ⟨d₁, Action.perform_bind_of_error hfailed, hfurnished₁, (fun _ hok => by cases hok),
      fun _ hthere => hsame₁ hthere.root⟩
  | ok u =>
    have hdone := hmade.trans (congrArg (fun r => (Except.mapError Error.io r, _)) hmaking)
    have hr₁ := hrooted hmaking
    have hlook := (looksAlike_of_furnished hfurnished₁).sameLook base
    obtain ⟨d', hopen, hfurnished, hthere, hsame⟩ :=
      perform_openDefault (h := { h with disk := d₁ }) hr₁ hengines
    rw [hmaking, engineOfNamespace_congr hlook] at hfound
    rw [Action.perform_bind_of_ok hdone, hfound]
    refine ⟨d', hopen, hfurnished₁.trans hfurnished, ?_, ?_⟩
    · intro contents hc
      exact ⟨hr₁.of_keeps hfurnished.keeps, hthere contents (eq_ok_of_mapError hc)⟩
    · intro contents hdatabase
      -- The directory is there, so making it has changed nothing, and the default namespace is
      -- opened on the same disk.
      obtain rfl := hsame₁ hdatabase.root
      exact hsame contents hdatabase

/-- What a namespace of an open database shows. -/
def namespaceBehind (root name : String) (contents : Contents)
    (look : List String → Option Node) : Except Error (Option Contents) :=
  if Database.isValidName name = false then .error (.invalidNamespace name)
  else if name = Database.defaultNamespace then .ok (some contents)
  else ((engineOfNamespace root name look).mapError .engine).map some

/-- What a namespace shows, by what stands below the data directory. -/
def namespaceFound (root name : String) (look : List String → Option Node) :
    Except Error (Option Contents) := do
  namespaceBehind root name (← databaseFound root look) look

theorem namespaceBehind_congr (h : SameLook look look') (root name : String) (contents : Contents) :
    namespaceBehind root name contents look = namespaceBehind root name contents look' := by
  unfold namespaceBehind
  rw [engineOfNamespace_congr h]

theorem namespaceFound_congr (h : SameLook look look') (root name : String) :
    namespaceFound root name look = namespaceFound root name look' := by
  unfold namespaceFound
  rw [databaseFound_congr h]
  simp only [namespaceBehind_congr h]

def contents? (name : String) (db : Database) (h : Host) : Option Contents :=
  (db.engineOf? name).map h.contents

/-- Opening a namespace shows what is found in its engine. -/
theorem finds_openNamespace_of_closed {db : Database}
    (hr : Rooted (Path.join root databaseDirectoryName) (base ++ [databaseDirectoryName]) h.disk)
    (hroot : db.root = Path.join root databaseDirectoryName) (hforgotten : db.closed = [])
    (hclosed : db.isOpen name = false) (hvalid : Database.isValidName name = true)
    (hdirectory : plan (directoryPlace name) = some .directory ∨
      standing base h.disk (directoryPlace name) = some .directory)
    (hengine : plan (enginePlace name) = some .engine)
    (hfree : Free (base ++ enginePlace name) h.engines) :
    (db.openNamespace .none name).Finds (fun h h' => Furnished plan base h.disk h'.disk)
      (contents? name) h
      (((engineOfNamespace root name (standing base h.disk)).mapError Error.engine).map some) := by
  obtain ⟨d', hopen, hfurnished, hnodes, -⟩ :=
    perform_openNamespace hr hroot hforgotten hclosed hvalid hdirectory hengine hfree
  rcases hfound : engineOfNamespace root name (standing base h.disk) with e | c
  · have hfailed := hopen.trans (congrArg (openedNamespace db name _ · h d') hfound)
    exact .of_perform hfailed hfurnished rfl
  · have hdone := hopen.trans (congrArg (openedNamespace db name _ · h d') hfound)
    have hlookup : (db.withOpen name h.nextEngine).engineOf? name = some h.nextEngine :=
      List.lookup_cons_self
    apply Action.Finds.of_perform hdone hfurnished
    show Except.ok (Option.map _ _) = Except.ok (some c)
    rw [hlookup]
    exact congrArg (fun contents => Except.ok (some contents))
      (contents_opened (hnodes c hfound).2 _ _ _)

/-- Besides the default namespace, none is open from the start. -/
theorem isOpen_openedDatabase (hname : name ≠ Database.defaultNamespace) (id : EngineId) :
    (openedDatabase root id).isOpen name = false := by
  unfold Database.isOpen Database.engineOf? openedDatabase
  rw [List.lookup_cons, beq_eq_false_iff_ne.2 hname]
  rfl

/-- Different namespaces have their engine files in different places. -/
theorem free_withDefault (hname : name ≠ Database.defaultNamespace) :
    Free (base ++ enginePlace name) (withDefault h base d).engines := by
  intro e hmem heq
  obtain rfl := List.mem_singleton.1 hmem
  have hplace := List.append_cancel_left heq
  unfold enginePlace at hplace
  injection hplace with _ hplace
  injection hplace with hdirectory _
  -- The directory of a namespace tells its name.
  exact hname (Database.directoryName_inj hdirectory).symm

/-- Opening a namespace of a database that was opened. -/
theorem finds_openNamespace {contents : Contents}
    (hr : Rooted (Path.join root databaseDirectoryName) (base ++ [databaseDirectoryName]) d)
    (hthere : HasDatabase base d contents)
    (hdirectory : Database.isValidName name = true →
      plan (directoryPlace name) = some .directory ∨
        standing base d (directoryPlace name) = some .directory)
    (hengine : plan (enginePlace name) = some .engine) :
    ((openedDatabase root h.nextEngine).openNamespace .none name).Finds
      (fun h h' => Furnished plan base h.disk h'.disk) (contents? name) (withDefault h base d)
      (namespaceBehind root name contents (standing base d)) := by
  unfold namespaceBehind
  by_cases hinvalid : Database.isValidName name = false
  · rw [if_pos hinvalid]
    exact .of_perform (Database.perform_openNamespace_of_invalid hinvalid) (.refl plan base d) rfl
  rw [if_neg hinvalid]
  -- A name is refused before any place is looked at; from here on it names a directory.
  have hvalid : Database.isValidName name = true := Bool.not_eq_false _ ▸ hinvalid
  by_cases hname : name = Database.defaultNamespace
  · -- The default namespace is open from the start.
    rw [if_pos hname]
    obtain rfl := hname
    apply Action.Finds.of_perform (Database.perform_openNamespace_of_isOpen hvalid rfl)
      (.refl plan base d)
    exact congrArg (fun contents => Except.ok (some contents))
      (contents_opened hthere.engine h.nextEngine (h.nextEngine + 1) [])
  · rw [if_neg hname]
    exact finds_openNamespace_of_closed (h := withDefault h base d) hr rfl rfl
      (isOpen_openedDatabase hname h.nextEngine) hvalid (hdirectory hvalid) hengine
      (free_withDefault hname)

def shownNamespace (c : Config) (name : String) (h : Host) : Except Error (Option Contents) :=
  (openDatabase c >>= fun db => db.openNamespace .none name).shown (contents? name) h

theorem shownNamespace_eq {c : Config} (hr : Rooted c.dataDirectory base h.disk)
    (hengines : h.engines = []) (name : String) :
    shownNamespace c name h = namespaceFound c.dataDirectory name (standing base h.disk) := by
  obtain ⟨d₁, hopen, hfurnished₁, hthere, -⟩ := perform_openDatabase hr hengines
  unfold shownNamespace Action.shown namespaceFound
  cases hdatabase : databaseFound c.dataDirectory (standing base h.disk) with
  | error e =>
    rw [hdatabase] at hopen
    rw [Action.perform_bind_of_error hopen]
    rfl
  | ok contents =>
    rw [hdatabase] at hopen
    rw [Action.perform_bind_of_ok hopen, ok_bind]
    obtain ⟨hr₁, hthere₁⟩ := hthere contents hdatabase
    have hlook := (looksAlike_of_furnished hfurnished₁).sameLook base
    have hdirectory : namePlan (directoryPlace name) = some .directory := by
      rw [← fixtureNamed_directoryName name]
      exact namePlan_append [databaseDirectoryName] (Database.directoryName name)
    -- Opening the database has furnished places, and the namespace is found behind them as if it
    -- had not.
    rw [namespaceBehind_congr hlook]
    exact (finds_openNamespace hr₁ hthere₁ (fun _ => .inl hdirectory) rfl).shows

/-- On a disk that looks alike, every namespace shows the same. -/
theorem shownNamespace_congr {c : Config} (hr : Rooted c.dataDirectory base h.disk)
    (halike : LooksAlike h.disk h'.disk) (hengines : h.engines = []) (hengines' : h'.engines = [])
    (name : String) : shownNamespace c name h' = shownNamespace c name h := by
  have hr' := hr.of_keeps halike.keeps
  have hlook := halike.sameLook base
  rw [shownNamespace_eq hr' hengines', shownNamespace_eq hr hengines,
    namespaceFound_congr hlook]

end CommandLine

end ReplicaStore
