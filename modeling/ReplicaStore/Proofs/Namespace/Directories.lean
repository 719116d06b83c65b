import Mathlib.Logic.Function.Basic
import ReplicaStore.Namespace.Database
import ReplicaStore.Proofs.Disk.Below
import ReplicaStore.Proofs.Engine.Opening

/-! # The directories of namespaces

    Every namespace has a directory of its own below that of the database, and an engine file in it.
    Different names have different directories, so what is done in one directory leaves the other
    namespaces as they are. Whether the engine of a namespace can be opened depends on the call, on
    the lengths of the paths, and on whether a live engine stands there already.

    * `place`: where the engine file of a namespace stands.
    * `Stores`: a disk stores contents for every namespace.
    * `refusal?`, `opening`: what comes of opening the engine of a namespace.
    * `Below.perform_openEngine_eq`: opening the engine of a namespace. -/

namespace ReplicaStore.Database

open Disk Host

/-! ## Names of directories -/

variable {name other : String}

theorem toList_directoryName (name : String) :
    (directoryName name).toList = name.toList ++ ['@', 'd', 'b'] := by
  rw [directoryName, String.toList_append]
  rfl

/-- Different namespaces have different directories. -/
theorem directoryName_inj (h : directoryName name = directoryName other) : name = other := by
  have hlist := congrArg String.toList h
  rw [toList_directoryName, toList_directoryName] at hlist
  exact String.toList_inj.1 (List.append_cancel_right hlist)

theorem not_mem_of_isValidName (h : isValidName name = true) :
    Path.separator ∉ name.toList ∧ '\x00' ∉ name.toList := by
  unfold isValidName at h
  simp only [List.contains_eq_mem, decide_eq_true_eq, not_or] at h
  exact ⟨h.1, h.2.2.1⟩

/-- The directory of a namespace with a valid name stands right below that of the database. -/
theorem isPlain_directoryName (h : isValidName name = true) :
    Path.IsPlain (directoryName name) := by
  -- Every such name has an `@`, so it is neither empty nor made of dots; a separator would be one
  -- of the name itself.
  have hat : '@' ∈ (directoryName name).toList := by
    rw [toList_directoryName]
    simp
  refine ⟨?_, ?_, ?_, ?_⟩
  · intro heq
    rw [heq] at hat
    cases hat
  · rw [toList_directoryName]
    simpa [Path.separator] using (not_mem_of_isValidName h).1
  · intro heq
    rw [heq] at hat
    revert hat
    decide
  · intro heq
    rw [heq] at hat
    revert hat
    decide

theorem holdsNul_directoryName (h : isValidName name = true) :
    Path.holdsNul (directoryName name) = false := by
  simp only [Path.holdsNul, List.contains_eq_mem, toList_directoryName, decide_eq_false_iff_not]
  simpa using (not_mem_of_isValidName h).2

theorem isPlain_engineFileName : Path.IsPlain engineFileName := by
  decide

/-! ## Places -/

/-- Where the directory of a namespace stands, below that of the database. -/
def directoryAt (root : Location) (name : String) : Location :=
  root ++ [directoryName name]

/-- Where the engine file of a namespace stands. -/
def place (root : Location) (name : String) : Location :=
  root ++ [directoryName name, engineFileName]

variable {loc : Location}

theorem directoryAt_inj (h : directoryAt loc name = directoryAt loc other) : name = other := by
  apply directoryName_inj
  simpa [directoryAt] using h

theorem place_inj (h : place loc name = place loc other) : name = other := by
  apply directoryName_inj
  simpa [place] using h

theorem directoryAt_ne_place (loc : Location) (name other : String) :
    directoryAt loc name ≠ place loc other := by
  intro h
  -- An engine file stands one level deeper than every directory of a namespace.
  have hlength := congrArg List.length h
  simp [directoryAt, place] at hlength

/-! ## What a disk stores -/

/-- Whether a disk stores contents for every namespace. A namespace that was never opened has no
    directory, and no contents yet. -/
structure Stores (loc : Location) (d : Disk) (tables : String → Contents) : Prop where
  directory : ∀ name, d.node? (directoryAt loc name) = none ∨
    d.node? (directoryAt loc name) = some .directory
  engine : ∀ name, d.node? (place loc name) = some (.engine (tables name)) ∨
    d.node? (place loc name) = none ∧ tables name = Contents.empty

variable {d d' : Disk} {tables : String → Contents} {c : Contents} {root : String}
  {h : Host}

/-- A change in the directory of one namespace changes the contents of no other. -/
theorem Stores.of_change (hs : Stores loc d tables)
    (hsame : ∀ loc', loc' ≠ directoryAt loc name → loc' ≠ place loc name →
      d'.node? loc' = d.node? loc')
    (hdirectory : d'.node? (directoryAt loc name) = none ∨
      d'.node? (directoryAt loc name) = some .directory)
    (hengine : d'.node? (place loc name) = some (.engine c) ∨
      d'.node? (place loc name) = none ∧ c = Contents.empty) :
    Stores loc d' (Function.update tables name c) := by
  -- The places of the other namespaces are other places, so they have not changed.
  constructor
  · intro other
    by_cases hname : other = name
    · rw [hname]
      exact hdirectory
    · rw [hsame _ (fun e => hname (directoryAt_inj e)) (directoryAt_ne_place loc other name)]
      exact hs.directory other
  · intro other
    by_cases hname : other = name
    · rw [hname, Function.update_self]
      exact hengine
    · rw [hsame _ (directoryAt_ne_place loc name other).symm (fun e => hname (place_inj e)),
        Function.update_of_ne hname]
      exact hs.engine other

/-- What a host shows of a namespace is what the disk stores for it. -/
theorem Stores.contentsAt_eq (hs : Stores loc h.disk tables) (name : String) :
    h.contentsAt (place loc name) = tables name := by
  unfold contentsAt
  rcases hs.engine name with hengine | ⟨hnone, hempty⟩
  · rw [hengine]
  · rw [hnone, hempty]

/-- Writing the engine file of a namespace. -/
theorem Stores.setContentsAt (hs : Stores loc h.disk tables) (name : String) (c : Contents) :
    Stores loc (h.setContentsAt (place loc name) c).disk (Function.update tables name c) := by
  apply hs.of_change
  · intro loc' _ hplace
    exact (sameBut_put h.disk _ _).node loc' hplace
  · have hnode := (sameBut_put h.disk (place loc name) (.engine c)).node _
      (directoryAt_ne_place loc name name)
    have hdirectory := hs.directory name
    rw [← hnode] at hdirectory
    exact hdirectory
  · left
    simp only [Host.setContentsAt, node?_put, if_true]

theorem Stores.keepsDirectories_setContentsAt (hs : Stores loc h.disk tables) (name : String)
    (c : Contents) : KeepsDirectories h.disk (h.setContentsAt (place loc name) c).disk := by
  apply (sameBut_put h.disk _ _).keepsDirectories
  -- What stands at the place is an engine file or nothing, and no directory.
  rcases hs.engine name with hengine | ⟨hnone, -⟩
  · rw [hengine]
    simp
  · rw [hnone]
    simp

/-! ## Opening -/

/-- Why the engine of a namespace cannot be opened, whatever the disk holds: the path of its
    directory, the name, or the path of its file is too long. -/
def refusal? (root name : String) : Option EngineError :=
  let directory := directoryOf root name
  if Path.pathLimit < (Utf8.encodeText directory).length then some (.io .nameTooLong)
  else if Path.isTooLong (directoryName name) then some (.io .nameTooLong)
  else if Path.pathLimit < (Utf8.encodeText (Path.join directory engineFileName)).length then
    some (.file .nameTooLong)
  else none

theorem lengths_of_refusal?_eq_none (h : refusal? root name = none) :
    ¬ Path.pathLimit < (Utf8.encodeText (directoryOf root name)).length ∧
      Path.isTooLong (directoryName name) = false ∧
      ¬ Path.pathLimit <
        (Utf8.encodeText (Path.join (directoryOf root name) engineFileName)).length := by
  unfold refusal? at h
  simp only at h
  split at h
  · cases h
  rename_i hdirectory
  split at h
  · cases h
  rename_i hname
  split at h
  · cases h
  rename_i hfile
  exact ⟨hdirectory, by simpa using hname, hfile⟩

/-- What comes of opening the engine of a namespace that no one has open. -/
def opening (root : String) (f : Fault) (name : String) : Except Error Unit :=
  if f.fails (.openAt (directoryOf root name)) then
    .error (.engine (Call.openAt (directoryOf root name)).failure)
  else match refusal? root name with
    | some e => .error (.engine e)
    | none => .ok ()

theorem refusal?_ne_locked : refusal? root name ≠ some .locked := by
  unfold refusal?
  simp only
  split
  · exact nofun
  split
  · exact nofun
  split
  · exact nofun
  · exact nofun

theorem opening_ne_locked {f : Fault} : opening root f name ≠ .error (.engine .locked) := by
  unfold opening
  -- An injected failure is told apart from a lock, and what the system refuses is a length.
  split
  · exact nofun
  split
  · rename_i e hrefusal
    intro heq
    cases heq
    exact refusal?_ne_locked hrefusal
  · exact nofun

/-- What stands in the directory of the database after a namespace was opened or not. -/
structure Below (root : String) (loc : Location) (d : Disk) (tables : String → Contents) :
    Prop where
  rooted : Rooted root loc d
  stores : Stores loc d tables

/-- Making the directory of a namespace leaves the contents of all namespaces. -/
theorem Below.of_sameBut (hb : Below root loc d tables)
    (hsame : SameBut (directoryAt loc name) d d')
    (hdirectory : d'.node? (directoryAt loc name) = some .directory) :
    Below root loc d' tables := by
  have hkeeps : KeepsDirectories d d' := by
    refine ⟨hsame.start, ?_⟩
    intro loc' hat
    by_cases heq : loc' = directoryAt loc name
    · rw [heq]
      exact hdirectory
    · rw [hsame.node loc' heq, hat]
  have hengine := hb.stores.engine name
  rw [← hsame.node _ (directoryAt_ne_place loc name name).symm] at hengine
  have hstores := hb.stores.of_change (fun loc' hne _ => hsame.node loc' hne) (.inr hdirectory)
    hengine
  -- The engine file is the same, so the contents of the namespace stay, too.
  rw [Function.update_eq_self] at hstores
  exact ⟨hb.rooted.of_keeps hkeeps, hstores⟩

/-- What is stored for a namespace is found under the path of its directory. -/
theorem Below.stored_eq (hb : Below root loc h.disk tables) (hvalid : isValidName name = true) :
    stored h (directoryOf root name) = tables name := by
  -- The path of the file goes down from that of the database by two plain names.
  have hplace : h.disk.resolve (Path.join (directoryOf root name) engineFileName) =
      place loc name := by
    rw [Disk.resolve_join _ _ isPlain_engineFileName, directoryOf,
      hb.rooted.resolve_join (isPlain_directoryName hvalid), List.append_assoc]
    rfl
  unfold stored
  rw [hplace]
  exact hb.stores.contentsAt_eq name

theorem Below.check_directoryOf (hb : Below root loc d tables) (hvalid : isValidName name = true) :
    Path.check (directoryOf root name) =
      if Path.pathLimit < (Utf8.encodeText (directoryOf root name)).length
      then .error .nameTooLong else .ok () :=
  Path.check_join (isPlain_directoryName hvalid) hb.rooted.holdsNul (holdsNul_directoryName hvalid)

theorem Below.check_engineFile (hb : Below root loc d tables) (hvalid : isValidName name = true) :
    Path.check (Path.join (directoryOf root name) engineFileName) =
      if Path.pathLimit <
          (Utf8.encodeText (Path.join (directoryOf root name) engineFileName)).length
      then .error .nameTooLong else .ok () := by
  have hnul : Path.holdsNul (directoryOf root name) = false :=
    Path.holdsNul_join (isPlain_directoryName hvalid) hb.rooted.holdsNul
      (holdsNul_directoryName hvalid)
  exact Path.check_join isPlain_engineFileName hnul (by decide)

/-- Making the directory of a namespace whose path and name are short enough. -/
theorem Below.makeDirectories (hb : Below root loc d tables) (hvalid : isValidName name = true)
    (hcheck : ¬ Path.pathLimit < (Utf8.encodeText (directoryOf root name)).length)
    (hshort : Path.isTooLong (directoryName name) = false) :
    ∃ d', d.makeDirectories (directoryOf root name) = (.ok (), d') ∧ Below root loc d' tables ∧
      d'.node? (directoryAt loc name) = some .directory := by
  have hplain := isPlain_directoryName hvalid
  have hchecked := hb.check_directoryOf hvalid
  rw [if_neg hcheck] at hchecked
  obtain ⟨d', hmake, hsame, hdirectory⟩ :=
    hb.rooted.makeDirectories_join hplain hchecked hshort (hb.stores.directory name)
  exact ⟨d', hmake, hb.of_sameBut hsame hdirectory, hdirectory⟩

/-- Contents can be opened in the directory of a namespace that is not refused. -/
theorem Below.ready (hb : Below root loc d tables) (hvalid : isValidName name = true)
    (hrefusal : refusal? root name = none) :
    Ready (directoryOf root name) (place loc name) d (tables name) ∧
      Below root loc (d.makeDirectories (directoryOf root name)).2 tables := by
  obtain ⟨hcheck, hshort, hfile⟩ := lengths_of_refusal?_eq_none hrefusal
  obtain ⟨d', hmake, hb', hdirectory⟩ := hb.makeDirectories hvalid hcheck hshort
  have hchecked := hb.check_engineFile hvalid
  rw [if_neg hfile] at hchecked
  have hlocate := hb'.rooted.locate_join_join (isPlain_directoryName hvalid) hshort hdirectory
    isPlain_engineFileName (by decide) hchecked
  rw [hmake]
  refine ⟨⟨?_, ?_, ?_⟩, hb'⟩
  · rw [hmake]
  · rw [hmake]
    exact hlocate
  · rw [hmake]
    exact (hb'.stores.engine name).imp_right fun ⟨hnone, hempty⟩ => ⟨.inl hnone, hempty⟩

/-- What the system refuses, it refuses before anything is written to an engine file. -/
theorem Below.perform_ensureEngine_of_refusal (hb : Below root loc h.disk tables)
    (hvalid : isValidName name = true) {e : EngineError} (hrefusal : refusal? root name = some e) :
    ∃ d', (ensureEngine (directoryOf root name)).perform h =
        (.error (.engine e), { h with disk := d' }) ∧ Below root loc d' tables := by
  have hplain := isPlain_directoryName hvalid
  have hcheck := hb.check_directoryOf hvalid
  -- The three lengths are checked in the order of the system: that of the directory, that of the
  -- name, that of the file.
  unfold refusal? at hrefusal
  simp only at hrefusal
  split at hrefusal
  · rename_i hlimit
    cases hrefusal
    rw [if_pos hlimit] at hcheck
    refine ⟨h.disk, ?_, hb⟩
    have hmake := hb.rooted.makeDirectories_join_of_check hplain hcheck
    simp only [Action.perform, ensureEngine, directoryOf, hmake]
  rename_i hlimit
  split at hrefusal
  · rename_i hlong
    cases hrefusal
    rw [if_neg hlimit] at hcheck
    refine ⟨h.disk, ?_, hb⟩
    have hmake := hb.rooted.makeDirectories_join_of_tooLong hplain hcheck hlong
    simp only [Action.perform, ensureEngine, directoryOf, hmake]
  rename_i hlong
  split at hrefusal
  · -- The directory is made by then, but the path of the file in it is too long.
    rename_i hfile
    cases hrefusal
    obtain ⟨d', hmake, hb', -⟩ := hb.makeDirectories hvalid hlimit (by simpa using hlong)
    have hchecked := hb.check_engineFile hvalid
    rw [if_pos hfile] at hchecked
    have hlocate : d'.locate (Path.join (directoryOf root name) engineFileName) =
        .error .nameTooLong := by
      unfold locate
      rw [hchecked]
      rfl
    refine ⟨d', ?_, hb'⟩
    simp only [Action.perform, ensureEngine, hmake, hlocate]
  · cases hrefusal

/-- Making sure of the engine file of a namespace leaves the contents of all namespaces. -/
theorem Below.of_kept (hb : Below root loc d tables) {directory : String}
    (hkept : Kept directory (place loc name) d' (tables name))
    (hsame : SameBut (place loc name) d d') : Below root loc d' tables := by
  -- Where the file stands is no directory, so putting the file there takes none away.
  have hnot : d.node? (place loc name) ≠ some .directory := by
    rcases hb.stores.engine name with hengine | ⟨hnone, -⟩
    · rw [hengine]
      simp
    · rw [hnone]
      simp
  have hdirectory := hb.stores.directory name
  rw [← hsame.node _ (directoryAt_ne_place loc name name)] at hdirectory
  have hstores := hb.stores.of_change (fun loc' _ hne => hsame.node loc' hne) hdirectory
    (.inl hkept.node)
  rw [Function.update_eq_self] at hstores
  exact ⟨hb.rooted.of_keeps (hsame.keepsDirectories hnot), hstores⟩

/-- The engine of a namespace is opened unless the call fails, the system refuses a path, or the
    engine is open already. In any case, every namespace keeps its contents. -/
theorem Below.perform_openEngine_eq (hb : Below root loc h.disk tables)
    (hvalid : isValidName name = true) (f : Fault) :
    ∃ d', Below root loc d' tables ∧ (Host.openEngine f (directoryOf root name)).perform h =
      match opening root f name with
      | .error e => (.error e, { h with disk := d' })
      | .ok () =>
        if h.isLocked (place loc name) then (.error (.engine .locked), { h with disk := d' })
        else (.ok h.nextEngine,
          ⟨d', ⟨h.nextEngine, place loc name, 1, 0⟩ :: h.engines, h.nextEngine + 1⟩) := by
  unfold opening
  cases hcall : f.fails (.openAt (directoryOf root name)) with
  | true => exact ⟨h.disk, hb, perform_openEngine_of_fails hcall⟩
  | false =>
    cases hrefusal : refusal? root name with
    | some e =>
      obtain ⟨d', hensure, hb'⟩ := hb.perform_ensureEngine_of_refusal hvalid hrefusal
      refine ⟨d', hb', ?_⟩
      exact perform_openEngine_of_ensureEngine hcall hensure
    | none =>
      obtain ⟨hready, hb'⟩ := hb.ready hvalid hrefusal
      -- Only a file that could be made sure of is looked up among the live engines.
      cases hlocked : h.isLocked (place loc name) with
      | true =>
        obtain ⟨d', hopen, hkept, hsame⟩ := perform_openEngine_of_locked hready hlocked hcall
        exact ⟨d', hb'.of_kept hkept hsame, hopen⟩
      | false =>
        obtain ⟨d', hopen, hkept, hsame⟩ :=
          perform_openEngine_of_ready hready (isLocked_eq_false_iff.1 hlocked) hcall
        exact ⟨d', hb'.of_kept hkept hsame, hopen⟩

end ReplicaStore.Database
