import ReplicaStore.CommandLine.Footprint
import ReplicaStore.Proofs.CommandLine.Showing

/-! # Commands that only inspect

    The tool has commands that only look at what is stored, and even they open what they look at:
    they make the directories and the files that are missing, and cut the torn tails of the record
    files. None of that shows. What a data directory shows afterwards is what it showed before, and
    a second run ends as the first one did.

    The one thing that a run looks at without opening it is its configuration file. Where the path
    of that file leads through a place that the run furnishes, a second run may find another
    configuration.

    * `printing_congr`: what is printed of actions that show the same.
    * `perform_withNamespace`: running a command on a namespace.
    * `furnished_runCommand`, `runCommand_again`: what a command leaves, and running it again.
    * `configOf_of_keepsClear`: the configuration of a second run.
    * `inspection_leaves_store`: what a whole run leaves. -/

namespace ReplicaStore.CommandLine

open Disk Host

variable {d d' : Disk} {h h' : Host} {base : Location} {name key : String} {c : Config}
  {command : Command}

/-! ## What is printed -/

section Printing

variable {α β γ : Type} {a : Action Host α} {a' : Action Host β} {view : α → Host → γ}
  {view' : β → Host → γ} {next : α → Host → Output × Host} {next' : β → Host → Output × Host}

theorem printing_of_ok {x : α} (hperform : a.perform h = (.ok x, h')) :
    printing a next h = next x h' := by
  unfold printing
  rw [hperform]

theorem printing_of_error {e : Error} (hperform : a.perform h = (.error e, h')) :
    printing a next h = (.failed (.store e), h') := by
  unfold printing
  rw [hperform]

/-- What is printed of two actions that show the same is the same. -/
theorem printing_congr (hshown : a'.shown view' h' = a.shown view h)
    (hnext : ∀ x s x' s', a.perform h = (.ok x, s) → a'.perform h' = (.ok x', s') →
      view' x' s' = view x s → (next' x' s').1 = (next x s).1) :
    (printing a' next' h').1 = (printing a next h).1 := by
  unfold Action.shown at hshown
  -- Both succeed or both fail, as they show the same; the mixed cases are contradictory.
  rcases hperform : a.perform h with ⟨e | x, s⟩
  · rcases hperform' : a'.perform h' with ⟨e' | x', s'⟩
    · rw [hperform, hperform'] at hshown
      cases hshown
      rw [printing_of_error hperform, printing_of_error hperform']
    · rw [hperform, hperform'] at hshown
      cases hshown
  · rcases hperform' : a'.perform h' with ⟨e' | x', s'⟩
    · rw [hperform, hperform'] at hshown
      cases hshown
    · rw [hperform, hperform'] at hshown
      rw [printing_of_ok hperform, printing_of_ok hperform']
      exact hnext x s x' s' hperform hperform' (Except.ok.inj hshown)

/-- Printing leaves what the action leaves. -/
theorem disk_printing (hnext : ∀ x s, (next x s).2.disk = s.disk) :
    (printing a next h).2.disk = (a.perform h).2.disk := by
  rcases hperform : a.perform h with ⟨e | x, s⟩
  · rw [printing_of_error hperform]
  · rw [printing_of_ok hperform]
    exact hnext x s

end Printing

/-! ## Commands on the log -/

theorem directory_of_perform_openBelow {parent : String} {handle : LogHandle}
    (hopen : (LogHandle.openBelow .none parent).perform h = (.ok handle, h')) :
    handle.directory = Path.join parent LogHandle.directoryName := by
  obtain ⟨u, h₁, -, hopen⟩ := Action.exists_of_perform_bind_eq_ok hopen
  obtain ⟨id, h₂, -, hopen⟩ := Action.exists_of_perform_bind_eq_ok hopen
  cases hlog : OperationLog.openOn .none (h₂.contents id) with
  | error e =>
    simp only [Action.perform, hlog] at hopen
    cases hopen
  | ok log =>
    simp only [Action.perform, hlog] at hopen
    cases hopen
    rfl

theorem withLog_congr {next : LogHandle → Host → Output × Host}
    (hshown : shownLog c h' = shownLog c h)
    (hnext : ∀ handle s handle' s', handle'.directory = handle.directory →
      handle'.log s' = handle.log s → (next handle' s').1 = (next handle s).1) :
    (withLog c next h').1 = (withLog c next h).1 := by
  apply printing_congr hshown
  intro handle s handle' s' hopen hopen' hlog
  apply hnext handle s handle' s' _ hlog
  rw [directory_of_perform_openBelow hopen, directory_of_perform_openBelow hopen']

/-! ## Commands on the metadata -/

theorem directory_of_perform_openAt {directory : String} {m : Metadata}
    (hopen : (Metadata.openAt directory).perform d = (.ok m, d')) : m.directory = directory := by
  obtain ⟨u, d₁, -, hopen⟩ := Action.exists_of_perform_bind_eq_ok hopen
  obtain ⟨term, d₂, -, hopen⟩ := Action.exists_of_perform_bind_eq_ok hopen
  obtain ⟨vote, d₃, -, hopen⟩ := Action.exists_of_perform_bind_eq_ok hopen
  obtain ⟨root, d₄, -, hopen⟩ := Action.exists_of_perform_bind_eq_ok hopen
  cases hopen
  rfl

theorem metadataText_congr {m m' : Metadata} (hdirectory : m'.directory = m.directory)
    (hview : m'.view = m.view) : metadataText m' = metadataText m := by
  obtain ⟨hterm, hvotes, hroot⟩ := Metadata.View.mk.inj hview
  unfold metadataText
  rw [hdirectory, hterm, hvotes, hroot]

/-! ## Commands on a namespace -/

/-- What is read of a key, in the contents of a namespace. -/
def valueIn (name : String) (key : Bytes) : Option Contents → Except Error Bytes
  | none => .error (.closedNamespace name)
  | some c => match c.get? key with
    | none => .error (.missingKey key name)
    | some value => .ok value

theorem perform_get_eq (db : Database) (name : String) (key : Bytes) (h : Host) :
    (db.get .none name key).perform h = (valueIn name key (contents? name db h), h) := by
  unfold Database.get contents?
  rcases hid : db.engineOf? name with _ | id
  · exact Action.perform_bind_of_error (Database.perform_engineOf_of_none hid h)
  · rw [Action.perform_bind_of_ok (Database.perform_engineOf hid h)]
    have hget : (Host.get .none id key).perform h = (.ok ((h.contents id).get? key), h) :=
      perform_get .none id key h
    rw [Action.perform_bind_of_ok hget]
    -- Reading the key comes last, and a missing one is an error of the database, not of the engine.
    show Action.perform _ h = (match (h.contents id).get? key with
      | none => .error (.missingKey key name)
      | some value => .ok value, h)
    rcases (h.contents id).get? key with _ | value
    · rfl
    · rfl

/-- Whether a command prints what an open namespace holds, and leaves the disk as it is. -/
structure Reports (name : String) (next : Database → Host → Output × Host) : Prop where
  prints : ∀ db s db' s', contents? name db' s' = contents? name db s →
    (next db' s').1 = (next db s).1
  leaves : ∀ db s, (next db s).2.disk = s.disk

theorem reports_get (name : String) (key : Bytes) :
    Reports name fun db => printingResult (db.get .none name key) valueText := by
  constructor
  · intro db s db' s' hcontents
    unfold printingResult printing
    rw [perform_get_eq, perform_get_eq, hcontents]
    rcases valueIn name key (contents? name db s) with e | value
    · rfl
    · rfl
  · intro db s
    unfold printingResult
    rw [disk_printing fun _ _ => rfl, perform_get_eq]

theorem reports_scan (name : String) (start : Option String) :
    Reports name fun db => scan db name start := by
  constructor
  · intro db s db' s' hcontents
    unfold contents? at hcontents
    unfold scan Database.newReader?
    -- A reader copies the contents, so two engines with the same contents are scanned alike,
    -- whatever their numbers are.
    rcases hid : db.engineOf? name with _ | id
    · rcases hid' : db'.engineOf? name with _ | id'
      · rfl
      · rw [hid, hid'] at hcontents
        cases hcontents
    · rcases hid' : db'.engineOf? name with _ | id'
      · rw [hid, hid'] at hcontents
        cases hcontents
      · rw [hid, hid'] at hcontents
        have hsame : s'.contents id' = s.contents id := Option.some.inj hcontents
        simp only [Option.map_some, Reader.make, hsame]
  · intro db s
    unfold scan Database.newReader?
    rcases db.engineOf? name with _ | id
    · rfl
    · rfl

/-- Running a command on a namespace. -/
theorem perform_withNamespace (hr : Rooted c.dataDirectory base h.disk) (hengines : h.engines = [])
    (name : String) (next : Database → Host → Output × Host) :
    ∃ d₁, Furnished storePlan base h.disk d₁ ∧
      (∀ contents, HasDatabase base h.disk contents → d₁ = h.disk) ∧
      match databaseFound c.dataDirectory (standing base h.disk) with
      | .error e => withNamespace c name next h = (.failed (.store e), { h with disk := d₁ })
      | .ok contents =>
        Rooted c.databasePath (base ++ [Config.databaseDirectoryName]) d₁ ∧
          HasDatabase base d₁ contents ∧
          withNamespace c name next h =
            if d₁.isDirectory (Database.directoryOf c.databasePath name) then
              printing ((openedDatabase c.dataDirectory h.nextEngine).openNamespace .none name) next
                (withDefault h base d₁)
            else (.failed (.noNamespace name c.databasePath), withDefault h base d₁) := by
  obtain ⟨d₁, hopen, hfurnished, hthere, hsame⟩ := perform_openDatabase hr hengines
  refine ⟨d₁, hfurnished, hsame, ?_⟩
  rcases hfound : databaseFound c.dataDirectory (standing base h.disk) with e | contents
  · rw [hfound] at hopen
    exact printing_of_error hopen
  · rw [hfound] at hopen
    obtain ⟨hr₁, hthere₁⟩ := hthere contents hfound
    refine ⟨hr₁, hthere₁, ?_⟩
    unfold withNamespace
    rw [printing_of_ok hopen]
    rfl

/-- The directory of a namespace stands where its name tells. -/
theorem standing_of_isDirectory
    (hr : Rooted c.databasePath (base ++ [Config.databaseDirectoryName]) d)
    (hvalid : Database.isValidName name = true)
    (hdirectory : d.isDirectory (Database.directoryOf c.databasePath name) = true) :
    standing base d (directoryPlace name) = some .directory := by
  obtain ⟨loc, hlocate, hnode⟩ := isDirectory_iff.1 hdirectory
  have hloc : loc = base ++ [Config.databaseDirectoryName] ++ [Database.directoryName name] :=
    (eq_resolve_of_locate hlocate).trans (hr.resolve_join (Database.isPlain_directoryName hvalid))
  rw [hloc, List.append_assoc] at hnode
  exact hnode

/-- Opening a namespace whose directory is there. -/
theorem finds_openNamespace_of_isDirectory {contents : Contents}
    (hr : Rooted c.databasePath (base ++ [Config.databaseDirectoryName]) d)
    (hthere : HasDatabase base d contents)
    (hdirectory : d.isDirectory (Database.directoryOf c.databasePath name) = true) :
    ((openedDatabase c.dataDirectory h.nextEngine).openNamespace .none name).Finds
      (Furnishes base) (contents? name) (withDefault h base d)
      (namespaceBehind c.dataDirectory name contents (standing base d)) := by
  apply finds_openNamespace hr hthere
  · intro hvalid
    exact .inr (standing_of_isDirectory hr hvalid hdirectory)
  · rfl

/-- A command on a namespace furnishes the data directory; what it does on the namespace comes after
    that. -/
theorem exists_withNamespace_eq (hr : Rooted c.dataDirectory base h.disk)
    (hengines : h.engines = []) (name : String) (next : Database → Host → Output × Host) :
    ∃ s : Host, Furnished storePlan base h.disk s.disk ∧
      ((withNamespace c name next h).2 = s ∨
        ∃ db, (withNamespace c name next h).2 = (next db s).2) := by
  obtain ⟨d₁, hfurnished, -, hrun⟩ := perform_withNamespace hr hengines name next
  rcases hfound : databaseFound c.dataDirectory (standing base h.disk) with e | contents
  · rw [hfound] at hrun
    rw [hrun]
    exact ⟨{ h with disk := d₁ }, hfurnished, .inl rfl⟩
  rw [hfound] at hrun
  obtain ⟨hr₁, hthere, hrun⟩ := hrun
  rw [hrun]
  -- Without the directory of the namespace, the command ends before the namespace is opened.
  by_cases hdirectory : d₁.isDirectory (Database.directoryOf c.databasePath name) = true
  · rw [if_pos hdirectory]
    have hframe := (finds_openNamespace_of_isDirectory (h := h) hr₁ hthere hdirectory).framed
    rcases hperform : ((openedDatabase c.dataDirectory h.nextEngine).openNamespace .none
      name).perform (withDefault h base d₁) with ⟨e | db, s⟩
    · rw [hperform] at hframe
      rw [printing_of_error hperform]
      exact ⟨s, hfurnished.trans hframe, .inl rfl⟩
    · rw [hperform] at hframe
      rw [printing_of_ok hperform]
      exact ⟨s, hfurnished.trans hframe, .inr ⟨db, rfl⟩⟩
  · rw [if_neg hdirectory]
    exact ⟨withDefault h base d₁, hfurnished, .inl rfl⟩

theorem furnished_withNamespace (hr : Rooted c.dataDirectory base h.disk)
    (hengines : h.engines = []) {next : Database → Host → Output × Host}
    (hleaves : ∀ db s, (next db s).2.disk = s.disk) :
    Furnished storePlan base h.disk (withNamespace c name next h).2.disk := by
  obtain ⟨s, hfurnished, hs | ⟨db, hs⟩⟩ := exists_withNamespace_eq hr hengines name next
  · rw [hs]
    exact hfurnished
  · rw [hs, hleaves]
    exact hfurnished

/-- What a command on a namespace has reported once, it reports again. -/
theorem withNamespace_again (hr : Rooted c.dataDirectory base h.disk) (hengines : h.engines = [])
    {next : Database → Host → Output × Host} (hnext : Reports name next)
    (hdisk : h'.disk = (withNamespace c name next h).2.disk) (hengines' : h'.engines = []) :
    (withNamespace c name next h').1 = (withNamespace c name next h).1 := by
  have hall : Furnished storePlan base h.disk (withNamespace c name next h).2.disk :=
    furnished_withNamespace hr hengines hnext.leaves
  rw [← hdisk] at hall
  -- The first run opens the database on `d₁`, the second one on `d₂`, which it makes of what the
  -- first run left.
  obtain ⟨d₁, -, -, hrun⟩ := perform_withNamespace hr hengines name next
  obtain ⟨d₂, hfurnished₂, hsame₂, hrun'⟩ :=
    perform_withNamespace (hr.of_keeps hall.keeps) hengines' name next
  rw [← databaseFound_congr ((looksAlike_of_furnished hall).sameLook base)] at hrun'
  rcases hfound : databaseFound c.dataDirectory (standing base h.disk) with e | contents
  · rw [hfound] at hrun hrun'
    rw [hrun, hrun']
  rw [hfound] at hrun hrun'
  obtain ⟨hr₁, hthere₁, hrun⟩ := hrun
  obtain ⟨hr₂, hthere₂, hrun'⟩ := hrun'
  by_cases hdirectory : d₁.isDirectory (Database.directoryOf c.databasePath name) = true
  · rw [if_pos hdirectory] at hrun
    have hopen := finds_openNamespace_of_isDirectory (h := h) hr₁ hthere₁ hdirectory
    rw [hrun, disk_printing hnext.leaves] at hdisk
    have hfurnished₁ : Furnished storePlan base d₁ h'.disk := by
      rw [hdisk]
      exact hopen.framed
    -- The directory that was found the first time is still there.
    have hboth := hfurnished₁.trans hfurnished₂
    have hdirectory' := isDirectory_of_keeps hboth.keeps hdirectory
    have hopen' := finds_openNamespace_of_isDirectory (h := h') hr₂ hthere₂ hdirectory'
    rw [hrun, hrun', if_pos hdirectory']
    have hlook := (looksAlike_of_furnished hboth).sameLook base
    apply printing_congr
    · exact hopen'.shows.trans ((namespaceBehind_congr hlook _ _ _).symm.trans hopen.shows.symm)
    · intro db s db' s' _ _ hcontents
      exact hnext.prints db s db' s' hcontents
  · -- Nothing was done behind the opening of the database, which changes nothing again.
    rw [if_neg hdirectory] at hrun
    have hdisk₁ : h'.disk = d₁ := by
      rw [hdisk, hrun]
      rfl
    obtain rfl : d₂ = d₁ := by
      rw [← hdisk₁] at hthere₁
      rw [hsame₂ contents hthere₁, hdisk₁]
    rw [hrun, hrun', if_neg hdirectory]

/-! ## Commands -/

def Command.Inspects : Command → Prop
  | .logInfo | .logDump _ _ _ | .metaShow | .dataGet _ _ | .dataScan _ _ => True
  | .logTruncate _ | .logCollect _ | .dataPut _ _ _ | .dataDelete _ _ => False

/-- A command that only inspects furnishes the data directory, and does nothing else. -/
theorem furnished_runCommand (hr : Rooted c.dataDirectory base h.disk) (hengines : h.engines = [])
    (hinspects : command.Inspects) :
    Furnished storePlan base h.disk (runCommand c command h).2.disk := by
  cases command with
  | logInfo =>
    show Furnished storePlan base h.disk (withLog c _ h).2.disk
    unfold withLog
    rw [disk_printing fun _ _ => rfl]
    exact (finds_openBelow hr hengines).framed
  | logDump start limit json =>
    show Furnished storePlan base h.disk (withLog c _ h).2.disk
    unfold withLog
    rw [disk_printing fun _ _ => rfl]
    exact (finds_openBelow hr hengines).framed
  | metaShow =>
    show Furnished storePlan base h.disk (printing (onDisk (Metadata.openAt _)) _ h).2.disk
    rw [disk_printing fun _ _ => rfl]
    exact (finds_openAt hr).framed
  | dataGet name key => exact furnished_withNamespace hr hengines (reports_get name _).leaves
  | dataScan name start =>
    exact furnished_withNamespace hr hengines (reports_scan name start).leaves
  | logTruncate | logCollect | dataPut | dataDelete => exact hinspects.elim

/-- A command that only inspects prints the same a second time. -/
theorem runCommand_again (hr : Rooted c.dataDirectory base h.disk) (hengines : h.engines = [])
    (hinspects : command.Inspects) (hdisk : h'.disk = (runCommand c command h).2.disk)
    (hengines' : h'.engines = []) :
    (runCommand c command h').1 = (runCommand c command h).1 := by
  have hfurnished := furnished_runCommand hr hengines hinspects
  rw [← hdisk] at hfurnished
  have halike := looksAlike_of_furnished hfurnished
  have hlog := shownLog_congr hr halike hengines hengines'
  -- What is printed goes by what is shown: of the log its fields, of the metadata the view, of a
  -- namespace its contents.
  cases command with
  | logInfo =>
    apply withLog_congr hlog
    intro handle s handle' s' hdirectory hshown
    obtain ⟨-, hlength, hterm⟩ := OperationLog.mk.inj hshown
    rw [hdirectory, hlength, hterm]
  | logDump start limit json =>
    apply withLog_congr hlog
    intro handle s handle' s' _ hshown
    rw [hshown]
  | metaShow =>
    apply printing_congr (shownMetadata_congr hr halike)
    intro m s m' s' hopen hopen' hview
    have hdirectory := directory_of_perform_openAt (Prod.ext (Prod.mk.inj hopen).1 rfl)
    have hdirectory' := directory_of_perform_openAt (Prod.ext (Prod.mk.inj hopen').1 rfl)
    exact congrArg Output.ok (metadataText_congr (hdirectory'.trans hdirectory.symm) hview)
  | dataGet name key => exact withNamespace_again hr hengines (reports_get name _) hdisk hengines'
  | dataScan name start =>
    exact withNamespace_again hr hengines (reports_scan name start) hdisk hengines'
  | logTruncate | logCollect | dataPut | dataDelete => exact hinspects.elim

/-! ## The configuration of a run -/

/-- What a walk finds depends on the places that it passes only. -/
theorem walk_congr {loc : Location} {names : List String}
    (hsame : ∀ other ∈ visited loc names, d'.node? other = d.node? other) :
    d'.walk loc names = d.walk loc names ∧
      ∀ last, d.walk loc names = .ok last → last ∈ visited loc names := by
  -- By the names of the path: the walk looks at the place where it is, then goes on from the next
  -- one.
  induction names generalizing loc with
  | nil =>
    refine ⟨rfl, ?_⟩
    intro last hlast
    obtain rfl : loc = last := Except.ok.inj hlast
    exact List.mem_singleton.2 rfl
  | cons name names ih =>
    have hloc := hsame loc List.mem_cons_self
    obtain ⟨hwalk, hlast⟩ := ih fun other hmem => hsame other (List.mem_cons_of_mem _ hmem)
    simp only [walk, hloc]
    rcases d.node? loc with _ | _ | _ | _
    · exact ⟨rfl, fun _ hend => by cases hend⟩
    · by_cases hlong : Path.isTooLong name = true
      · rw [hlong]
        exact ⟨rfl, fun _ hend => by cases hend⟩
      · rw [if_neg hlong, if_neg hlong]
        exact ⟨hwalk, fun last h => List.mem_cons_of_mem _ (hlast last h)⟩
    · exact ⟨rfl, fun _ hend => by cases hend⟩
    · exact ⟨rfl, fun _ hend => by cases hend⟩

theorem find_congr {path : String} (hstart : d'.workingDirectory = d.workingDirectory)
    (hsame : ∀ loc ∈ locationsOf d path, d'.node? loc = d.node? loc) :
    d'.find path = d.find path := by
  obtain ⟨hwalk, hlast⟩ := walk_congr hsame
  unfold find locate
  rw [start_congr hstart, hwalk]
  rcases Path.check path with e | u
  · rfl
  · rw [ok_bind]
    -- Besides the places of the walk, only the node at its end is looked at, which is one of them.
    rcases hend : d.walk (d.start path) (Path.names path) with e | loc
    · rfl
    · rw [ok_bind, ok_bind, hsame loc (hlast loc hend)]

/-- The configuration of the file of a run, or the default one. -/
def loadedOf (args : Arguments) (d : Disk) : Except Failure Config :=
  if d.contains args.config then (Config.load d args.config).mapError (.loading args.config)
  else .ok Config.default

/-- The configuration with what the arguments say instead. -/
def settled (args : Arguments) (loaded : Config) : Config :=
  { loaded with
    dataDirectory := args.dataDirectory.getD loaded.dataDirectory
    level := args.level.getD loaded.level }

/-- A configuration whose data directory is there. -/
def located (d : Disk) (c : Config) : Except Failure Config :=
  if d.isDirectory c.dataDirectory then .ok c else .error (.noDirectory c.dataDirectory)

theorem located_eq_ok_iff {loaded : Config} :
    located d loaded = .ok c ↔ loaded = c ∧ d.isDirectory c.dataDirectory = true := by
  unfold located
  constructor
  · intro h
    split at h
    · cases h
      exact ⟨rfl, ‹_›⟩
    · cases h
  · rintro ⟨rfl, hdirectory⟩
    rw [if_pos hdirectory]

theorem configOf_eq (args : Arguments) (d : Disk) :
    configOf args d = (do
      let loaded ← loadedOf args d
      (settled args loaded).validate.mapError fun e => .store (.config e)
      located d (settled args loaded)) := by
  have hlocated : ∀ c : Config,
      (if ¬ d.isDirectory c.dataDirectory then .error (.noDirectory c.dataDirectory) else .ok c) =
        located d c := by
    intro c
    unfold located
    by_cases hdirectory : d.isDirectory c.dataDirectory = true
    · rw [if_pos hdirectory, if_neg (not_not_intro hdirectory)]
    · rw [if_neg hdirectory, if_pos hdirectory]
  -- The two branches of the file differ in what is loaded only, so the rest is stated once.
  simp only [← hlocated]
  unfold configOf loadedOf
  by_cases hcontains : d.contains args.config = true
  · rw [if_pos hcontains]
    simp only [if_pos hcontains]
    rfl
  · rw [if_neg hcontains]
    simp only [if_neg hcontains]
    rfl

theorem isDirectory_of_configOf {args : Arguments} (hconfig : configOf args d = .ok c) :
    d.isDirectory c.dataDirectory = true := by
  rw [configOf_eq] at hconfig
  obtain ⟨loaded, -, hconfig⟩ := exists_of_bind_eq_ok hconfig
  obtain ⟨u, -, hconfig⟩ := exists_of_bind_eq_ok hconfig
  exact (located_eq_ok_iff.1 hconfig).2

/-- Where the configuration file is found as before, the configuration is the same. -/
theorem configOf_of_find {args : Arguments} (hconfig : configOf args d = .ok c)
    (hfind : d'.find args.config = d.find args.config) (hkeeps : KeepsDirectories d d') :
    configOf args d' = .ok c := by
  have hloaded : loadedOf args d' = loadedOf args d := by
    unfold loadedOf contains Config.load readText Disk.read
    rw [hfind]
  rw [configOf_eq] at hconfig ⊢
  -- Validation looks at no disk; of the data directory it only matters that it is still there.
  obtain ⟨loaded, hload, hconfig⟩ := exists_of_bind_eq_ok hconfig
  obtain ⟨u, hvalidate, hlocated⟩ := exists_of_bind_eq_ok hconfig
  obtain ⟨hsettled, hdirectory⟩ := located_eq_ok_iff.1 hlocated
  have hdirectory' := isDirectory_of_keeps hkeeps hdirectory
  rw [hloaded, hload, ok_bind, hvalidate, ok_bind]
  exact located_eq_ok_iff.2 ⟨hsettled, hdirectory'⟩

/-- Whether the path of the configuration file passes no place that a command may furnish, except
    for directories that are there. -/
def KeepsClear (args : Arguments) (d : Disk) : Prop :=
  ∀ c base rel, configOf args d = .ok c → d.locate c.dataDirectory = .ok base →
    isStorePlace rel = true → base ++ rel ∈ locationsOf d args.config →
    d.node? (base ++ rel) = some .directory

/-- A furnished data directory leaves such a path as it is. -/
theorem configOf_of_keepsClear {args : Arguments} (hclear : KeepsClear args d)
    (hconfig : configOf args d = .ok c) (hlocate : d.locate c.dataDirectory = .ok base)
    (hfurnished : Furnished storePlan base d d') : configOf args d' = .ok c := by
  refine configOf_of_find hconfig (find_congr hfurnished.keeps.start ?_) hfurnished.keeps
  intro loc hmem
  -- A place of the path that a run furnished was a directory before, and no directory goes away.
  obtain hsame | ⟨rel, fixture, rfl, hplan, -⟩ := hfurnished.node loc
  · exact hsame
  · have hplace := (storePlan_eq_some_iff.1 hplan).1
    have hdirectory := hclear c base rel hconfig hlocate hplace hmem
    rw [hdirectory]
    exact hfurnished.keeps.directory _ hdirectory

/-! ## Directories that a run makes -/

/-- Removing a key makes no directory. -/
theorem directory_of_perform_delete {db : Database} {f : Fault} {k : Bytes} {loc : Location}
    (hafter : ((db.delete f name k).perform h).2.disk.node? loc = some .directory) :
    h.disk.node? loc = some .directory := by
  unfold Database.delete at hafter
  rcases hid : db.engineOf? name with _ | id
  · rw [Action.perform_bind_of_error (Database.perform_engineOf_of_none hid h)] at hafter
    exact hafter
  -- What a write changes is the engine file, and that is no directory.
  rw [Action.perform_bind_of_ok (Database.perform_engineOf hid h), perform_write] at hafter
  split at hafter
  · exact hafter
  unfold Host.setContents at hafter
  split at hafter
  · simp only [Host.setContentsAt, node?_put] at hafter
    split at hafter
    · cases hafter
    · exact hafter
  · exact hafter

/-- Whether a command inspects, or removes a key. -/
def Command.InspectsOrDeletes (command : Command) : Prop :=
  command.Inspects ∨ ∃ name key, command = .dataDelete name key

/-- A directory that such a command makes is furnished. -/
theorem new_directory_runCommand (hr : Rooted c.dataDirectory base h.disk)
    (hengines : h.engines = []) (hcommand : command.InspectsOrDeletes) {loc : Location}
    (hafter : (runCommand c command h).2.disk.node? loc = some .directory) :
    h.disk.node? loc = some .directory ∨
      ∃ rel, loc = base ++ rel ∧ storePlan rel = some .directory := by
  obtain hinspects | ⟨name, key, rfl⟩ := hcommand
  · exact (furnished_runCommand hr hengines hinspects).new_directory hafter
  · have hrun := exists_withNamespace_eq hr hengines name fun db =>
      printingResult (db.delete .none name (Utf8.encodeText key)) fun _ => ""
    -- Either the run ended with the furnishing, or the removal came behind it.
    obtain ⟨s, hfurnished, hs | ⟨db, hs⟩⟩ := hrun
    · have hhost : (runCommand c (.dataDelete name key) h).2 = s := hs
      rw [hhost] at hafter
      exact hfurnished.new_directory hafter
    · have hhost : (runCommand c (.dataDelete name key) h).2 = _ := hs
      rw [hhost] at hafter
      unfold printingResult at hafter
      rw [disk_printing fun _ _ => rfl] at hafter
      exact hfurnished.new_directory (directory_of_perform_delete hafter)

/-! ## Runs -/

section Runs

variable {args : List String} {environment : Option String} {read : Arguments}

/-- A run with a configuration runs its command and closes what the command opened. -/
theorem run_eq (hread : Arguments.read args environment = .ok read)
    (hconfig : configOf read h.disk = .ok c) :
    run args environment h = ((runCommand c read.command h).1.outcome,
      { (runCommand c read.command h).2 with engines := h.engines }) := by
  unfold run runArguments
  rw [hread]
  simp only [hconfig]

/-- A run does nothing to its host, or it runs a command on a data directory. -/
theorem run_cases (args : List String) (environment : Option String) (h : Host) :
    (run args environment h).2 = h ∨
      ∃ read c base, Arguments.read args environment = .ok read ∧ configOf read h.disk = .ok c ∧
        Rooted c.dataDirectory base h.disk ∧ h.disk.locate c.dataDirectory = .ok base := by
  rcases hread : Arguments.read args environment with stop | read
  · left
    unfold run
    rw [hread]
    cases stop with
    | help => rfl
    | version => rfl
    | misuse => rfl
  -- Arguments that cannot be read and a configuration that cannot be loaded end the run before any
  -- command.
  rcases hconfig : configOf read h.disk with failure | c
  · left
    unfold run runArguments
    rw [hread]
    simp only [hconfig]
  · right
    have hdirectory := isDirectory_of_configOf hconfig
    obtain ⟨base, hr⟩ := exists_rooted_of_isDirectory hdirectory
    obtain ⟨loc, hlocate, -⟩ := isDirectory_iff.1 hdirectory
    obtain rfl : loc = base :=
      (eq_resolve_of_locate hlocate).trans (eq_foldl_of_walk hr.leads).symm
    exact ⟨read, c, loc, rfl, hconfig, hr, hlocate⟩

/-- Whether all that the arguments can be read as has a property. -/
def Asks (property : Command → Prop) (args : List String) (environment : Option String) : Prop :=
  ∀ read, Arguments.read args environment = .ok read → property read.command

/-- Whether every data directory of a host shows the same on another host. -/
def ShowsSame (h h' : Host) : Prop :=
  ∀ c : Config, h.disk.isDirectory c.dataDirectory = true →
    shownLog c h' = shownLog c h ∧ shownMetadata c h' = shownMetadata c h ∧
      ∀ name, shownNamespace c name h' = shownNamespace c name h

/-- Whether a run has the same configuration on another host. -/
def SameConfiguration (args : List String) (environment : Option String) (h h' : Host) : Prop :=
  ∀ read, Arguments.read args environment = .ok read →
    configOf read h'.disk = configOf read h.disk

/-- Whether every directory of a host is one of another host already, or belongs to the log, to the
    metadata, to the database or to its default namespace below the data directory of a run. -/
def OnlyOwnDirectories (args : List String) (environment : Option String) (h h' : Host) : Prop :=
  ∀ loc, h'.disk.node? loc = some .directory → h.disk.node? loc = some .directory ∨
    ∃ read c base rel, Arguments.read args environment = .ok read ∧
      configOf read h.disk = .ok c ∧ h.disk.locate c.dataDirectory = .ok base ∧
      loc = base ++ rel ∧
      (rel = [LogHandle.directoryName] ∨ rel = [Config.metadataDirectoryName] ∨
        rel = [Config.databaseDirectoryName] ∨
        rel = directoryPlace Database.defaultNamespace)

/-- A run that only inspects leaves what every data directory shows. -/
theorem showsSame_run (hengines : h.engines = [])
    (hinspects : Asks Command.Inspects args environment) :
    ShowsSame h (run args environment h).2 := by
  intro c' hdirectory
  obtain ⟨base', hr'⟩ := exists_rooted_of_isDirectory hdirectory
  -- The data directory that is looked at need not be the one of the run.
  obtain hsame | ⟨read, c, base, hread, hconfig, hr, -⟩ := run_cases args environment h
  · rw [hsame]
    exact ⟨rfl, rfl, fun _ => rfl⟩
  · have hfurnished := furnished_runCommand hr hengines (hinspects read hread)
    rw [run_eq hread hconfig]
    have halike := looksAlike_of_furnished hfurnished
    exact ⟨shownLog_congr hr' halike hengines hengines, shownMetadata_congr hr' halike,
      shownNamespace_congr hr' halike hengines hengines⟩

/-- A run that only inspects ends the same a second time, if it finds its configuration again. -/
theorem run_again (hengines : h.engines = []) (hinspects : Asks Command.Inspects args environment)
    (hsame : SameConfiguration args environment h (run args environment h).2) :
    (run args environment (run args environment h).2).1 = (run args environment h).1 := by
  obtain hidle | ⟨read, c, base, hread, hconfig, hr, -⟩ := run_cases args environment h
  · rw [hidle]
  · have hconfig' := (hsame read hread).trans hconfig
    rw [run_eq hread hconfig] at hconfig' ⊢
    rw [run_eq hread hconfig']
    exact congrArg Output.outcome
      (runCommand_again hr hengines (hinspects read hread) rfl hengines)

theorem sameConfiguration_run (hengines : h.engines = [])
    (hinspects : Asks Command.Inspects args environment)
    (hclear : ∀ read, Arguments.read args environment = .ok read → KeepsClear read h.disk) :
    SameConfiguration args environment h (run args environment h).2 := by
  intro read hread
  obtain hidle | ⟨read', c, base, hread', hconfig, hr, hlocate⟩ := run_cases args environment h
  · rw [hidle]
  · obtain rfl : read = read' := Except.ok.inj (hread.symm.trans hread')
    have hfurnished := furnished_runCommand hr hengines (hinspects read hread)
    rw [run_eq hread hconfig, hconfig]
    exact configOf_of_keepsClear (hclear read hread) hconfig hlocate hfurnished

theorem onlyOwnDirectories_run (hengines : h.engines = [])
    (hcommand : Asks Command.InspectsOrDeletes args environment) :
    OnlyOwnDirectories args environment h (run args environment h).2 := by
  intro loc hafter
  obtain hidle | ⟨read, c, base, hread, hconfig, hr, hlocate⟩ := run_cases args environment h
  · rw [hidle] at hafter
    exact .inl hafter
  · rw [run_eq hread hconfig] at hafter
    obtain hbefore | ⟨rel, hloc, hplan⟩ :=
      new_directory_runCommand hr hengines (hcommand read hread) hafter
    · exact .inl hbefore
    · exact .inr ⟨read, c, base, rel, hread, hconfig, hlocate, hloc, storePlan_directory hplan⟩

/-- The commands that inspect change nothing that a data directory shows, whatever is on the disk,
    whatever the arguments are, and whether the run succeeds or fails. A second run ends as the
    first one did, if it has the same configuration; it has, if the path of the configuration file
    keeps clear of the places that the first run may have furnished. No directory of a namespace is
    made but the one of the default namespace, not even by removing a key. -/
theorem inspection_leaves_store (hengines : h.engines = []) (args : List String)
    (environment : Option String) :
    let after := (run args environment h).2
    (Asks Command.Inspects args environment →
      ShowsSame h after ∧
      (SameConfiguration args environment h after →
        (run args environment after).1 = (run args environment h).1) ∧
      ((∀ read, Arguments.read args environment = .ok read → KeepsClear read h.disk) →
        SameConfiguration args environment h after)) ∧
    (Asks Command.InspectsOrDeletes args environment →
      OnlyOwnDirectories args environment h after) := by
  intro after
  constructor
  · intro hinspects
    exact ⟨showsSame_run hengines hinspects, run_again hengines hinspects,
      sameConfiguration_run hengines hinspects⟩
  · intro hcommand
    exact onlyOwnDirectories_run hengines hcommand

end Runs

/-! ## A torn tail, and a configuration file that is missing -/

/-- The arguments that show the metadata of the root directory. -/
def showMetadata : List String := ["--data-dir", "/", "meta", "show"]

/-- A disk on which the file of the terms has a torn tail and nothing else. -/
def tornDisk : Disk :=
  ((Disk.empty []).put [Config.metadataDirectoryName] .directory).put
    [Config.metadataDirectoryName, Metadata.termFileName] (.file 0 [1, 2, 3])

theorem eq_of_toOption {ε α : Type} {r : Except ε α} {x y : α} (hx : r.toOption = some x)
    (hy : r = .ok y) : y = x := by
  rw [hy] at hx
  exact Option.some.inj hx

theorem read_showMetadata : (Arguments.read showMetadata none).toOption =
    some ⟨defaultConfigPath, some "/", none, .metaShow⟩ := by
  decide +kernel

theorem keepsClear_tornDisk :
    KeepsClear ⟨defaultConfigPath, some "/", none, .metaShow⟩ tornDisk := by
  intro c base rel hconfig hlocate hplace hmem
  obtain rfl : c = { Config.default with dataDirectory := "/" } :=
    (Except.ok.inj (hconfig.symm.trans rfl))
  obtain rfl : base = [] := Except.ok.inj (hlocate.symm.trans rfl)
  -- The way to the default file leads through `/etc`, which is no place of the store.
  have hway : locationsOf tornDisk defaultConfigPath =
      [[], ["etc"], ["etc", "chubby"], ["etc", "chubby", "storage.toml"]] := rfl
  have hnone : ∀ loc ∈ locationsOf tornDisk defaultConfigPath, isStorePlace loc = false := by
    rw [hway]
    decide
  rw [hnone rel hmem] at hplace
  cases hplace

/-- Showing the metadata cuts the torn tail off, shows the same a second time, and leaves what
    every data directory shows. -/
theorem inspection_leaves_store_of_torn_tail :
    let h := Host.ofDisk tornDisk
    let after := (run showMetadata none h).2
    h.disk.bytesAt [Config.metadataDirectoryName, Metadata.termFileName] = [1, 2, 3] ∧
      after.disk.bytesAt [Config.metadataDirectoryName, Metadata.termFileName] = [] ∧
      ShowsSame h after ∧ (run showMetadata none after).1 = (run showMetadata none h).1 ∧
      OnlyOwnDirectories showMetadata none h after := by
  intro h after
  have hengines : h.engines = [] := rfl
  obtain ⟨hinspects, hdirectories⟩ := inspection_leaves_store hengines showMetadata none
  have hasks : Asks Command.Inspects showMetadata none := by
    intro read hread
    rw [eq_of_toOption read_showMetadata hread]
    exact trivial
  obtain ⟨hshows, hagain, hsame⟩ := hinspects hasks
  have hclear : ∀ read, Arguments.read showMetadata none = .ok read → KeepsClear read h.disk := by
    intro read hread
    rw [eq_of_toOption read_showMetadata hread]
    exact keepsClear_tornDisk
  refine ⟨rfl, by decide +kernel, hshows, hagain (hsame hclear), hdirectories ?_⟩
  intro read hread
  exact .inl (hasks read hread)

/-- The arguments that show the metadata of the root directory, with a configuration file that is
    missing so far and stands where the directory of the metadata is going to be. -/
def showMetadataOver : List String := ["--config", "/meta", "--data-dir", "/", "meta", "show"]

/-- Then the first run makes that directory, and the second one finds it in place of its
    configuration file. -/
theorem second_run_fails_over_directory :
    Asks Command.Inspects showMetadataOver none ∧
      (run showMetadataOver none (Host.ofDisk (Disk.empty []))).1.exit = 0 ∧
      (run showMetadataOver none
        (run showMetadataOver none (Host.ofDisk (Disk.empty []))).2).1.exit = 1 := by
  have hreads : (Arguments.read showMetadataOver none).toOption =
      some ⟨"/meta", some "/", none, .metaShow⟩ := by decide +kernel
  refine ⟨?_, by decide +kernel, by decide +kernel⟩
  intro read hread
  rw [eq_of_toOption hreads hread]
  exact trivial

end ReplicaStore.CommandLine
