import ReplicaStore.Disk.Basic
import ReplicaStore.Proofs.Disk.Join

/-! # Ways through a disk

    A path that has led somewhere leads there again as long as the directories on its way stay.
    Nothing that the store does to a disk removes a directory, so what could be opened once can be
    opened again; and making directories leaves every file as it is. -/

namespace ReplicaStore.Disk

/-! ## Bytes -/

/-- The bytes of the file at a location; none where no file is. -/
def bytesAt (d : Disk) (loc : Location) : Bytes :=
  match d.node? loc with
  | some (.file _ data) => data
  | _ => []

theorem bytesAt_of_file {d : Disk} {loc : Location} {identity : Nat} {data : Bytes}
    (h : d.node? loc = some (.file identity data)) : d.bytesAt loc = data := by
  simp [bytesAt, h]

theorem bytesAt_congr {d d' : Disk} {loc : Location} (h : d'.node? loc = d.node? loc) :
    d'.bytesAt loc = d.bytesAt loc := by
  simp [bytesAt, h]

/-! ## Changes in one place -/

/-- Two disks that agree everywhere but at one location. -/
structure SameBut (loc : Location) (d d' : Disk) : Prop where
  /-- Relative paths start in the same place. -/
  start : d'.workingDirectory = d.workingDirectory
  /-- Everywhere else stands the same. -/
  node : ∀ other, other ≠ loc → d'.node? other = d.node? other

theorem SameBut.refl (loc : Location) (d : Disk) : SameBut loc d d :=
  ⟨rfl, fun _ _ => rfl⟩

theorem SameBut.trans {loc : Location} {d₁ d₂ d₃ : Disk} (h₁ : SameBut loc d₁ d₂)
    (h₂ : SameBut loc d₂ d₃) : SameBut loc d₁ d₃ :=
  ⟨h₂.start.trans h₁.start, fun other hne => (h₂.node other hne).trans (h₁.node other hne)⟩

theorem sameBut_put (d : Disk) (loc : Location) (n : Node) : SameBut loc d (d.put loc n) where
  start := rfl
  node other hne := by rw [node?_put, if_neg hne]

/-- Writing a file changes nothing else. -/
theorem sameBut_setData (d : Disk) (loc : Location) (data : Bytes) :
    SameBut loc d (d.setData loc data) := by
  unfold setData
  split
  · exact sameBut_put d loc _
  · exact ⟨rfl, (sameBut_put d loc _).node⟩

theorem node?_setData_of_file {d : Disk} {loc : Location} {identity : Nat} {old : Bytes}
    (h : d.node? loc = some (.file identity old)) (data : Bytes) :
    (d.setData loc data).node? loc = some (.file identity data) := by
  simp [setData, h]

/-- Of two nodes put at one place, the second stays. -/
theorem put_put (d : Disk) (loc : Location) (m n : Node) :
    (d.put loc m).put loc n = d.put loc n := by
  simp [put, clear, List.filter_filter]

theorem setData_setData {d : Disk} {loc : Location} {identity : Nat} {old : Bytes}
    (h : d.node? loc = some (.file identity old)) (data : Bytes) :
    (d.setData loc data).setData loc data = d.setData loc data := by
  have hnode := node?_setData_of_file h data
  rw [setData, hnode]
  simp only [setData, h, put_put]

/-! ## Directories that stay -/

/-- Whether every directory of a disk is one of another disk, too. -/
structure KeepsDirectories (d d' : Disk) : Prop where
  /-- Relative paths start in the same place. -/
  start : d'.workingDirectory = d.workingDirectory
  /-- A directory stays one. -/
  directory : ∀ loc, d.node? loc = some .directory → d'.node? loc = some .directory

theorem KeepsDirectories.refl (d : Disk) : KeepsDirectories d d :=
  ⟨rfl, fun _ h => h⟩

theorem KeepsDirectories.trans {d₁ d₂ d₃ : Disk} (h₁ : KeepsDirectories d₁ d₂)
    (h₂ : KeepsDirectories d₂ d₃) : KeepsDirectories d₁ d₃ :=
  ⟨h₂.start.trans h₁.start, fun loc h => h₂.directory loc (h₁.directory loc h)⟩

/-- A change in a place where no directory is keeps all directories. -/
theorem SameBut.keepsDirectories {loc : Location} {d d' : Disk} (h : SameBut loc d d')
    (hloc : d.node? loc ≠ some .directory) : KeepsDirectories d d' where
  start := h.start
  directory other hother := by
    have hne : other ≠ loc := fun e => hloc (e ▸ hother)
    rw [h.node other hne, hother]

/-! ## Walking -/

/-- Where a path leads, as far as its names tell. -/
def resolve (d : Disk) (path : String) : Location :=
  (Path.names path).foldl Path.step (d.start path)

theorem start_congr {d d' : Disk} (h : d'.workingDirectory = d.workingDirectory) (path : String) :
    d'.start path = d.start path := by
  simp [start, h]

theorem resolve_congr {d d' : Disk} (h : d'.workingDirectory = d.workingDirectory)
    (path : String) : d'.resolve path = d.resolve path := by
  rw [resolve, resolve, start_congr h]

/-- A file below a directory stands at the directory's location and its own name. -/
theorem resolve_join (d : Disk) (base : String) {name : String} (h : Path.IsPlain name) :
    d.resolve (Path.join base name) = d.resolve base ++ [name] := by
  have hstart : d.start (Path.join base name) = d.start base := by
    simp [start, Path.isAbsolute_join base h]
  rw [resolve, Path.names_join base h, hstart, List.foldl_append, List.foldl_cons, List.foldl_nil,
    h.step_eq, resolve]

/-- Files of different names stand in different places. -/
theorem resolve_join_inj (d : Disk) (base : String) {name other : String} (h : Path.IsPlain name)
    (h' : Path.IsPlain other)
    (heq : d.resolve (Path.join base name) = d.resolve (Path.join base other)) : name = other := by
  rw [resolve_join d base h, resolve_join d base h'] at heq
  simpa using heq

/-- A walk ends where the names tell. -/
theorem eq_foldl_of_walk {d : Disk} {loc last : Location} {names : List String}
    (h : d.walk loc names = .ok last) : last = names.foldl Path.step loc := by
  induction names generalizing loc with
  | nil =>
    simp only [walk, Except.ok.injEq] at h
    exact h.symm
  | cons name names ih =>
    simp only [walk] at h
    split at h
    · simp at h
    · split at h
      · simp at h
      · exact ih h
    · simp at h

/-- A walk leads to the same place on every disk that keeps the directories. -/
theorem walk_of_keeps {d d' : Disk} (hkeeps : KeepsDirectories d d') {loc last : Location}
    {names : List String} (h : d.walk loc names = .ok last) : d'.walk loc names = .ok last := by
  -- A walk asks of every place on its way only whether it is a directory, and these stay.
  induction names generalizing loc with
  | nil => exact h
  | cons name names ih =>
    simp only [walk] at h ⊢
    split at h
    · simp at h
    · rename_i hdirectory
      rw [hkeeps.directory loc hdirectory]
      split at h
      · simp at h
      · rename_i hlong
        simp only [if_neg hlong]
        exact ih h
    · simp at h

theorem eq_resolve_of_locate {d : Disk} {path : String} {loc : Location}
    (h : d.locate path = .ok loc) : loc = d.resolve path := by
  unfold locate at h
  cases hcheck : Path.check path with
  | error e =>
    rw [hcheck] at h
    cases h
  | ok u =>
    rw [hcheck] at h
    exact eq_foldl_of_walk h

theorem locate_of_keeps {d d' : Disk} (hkeeps : KeepsDirectories d d') {path : String}
    {loc : Location} (h : d.locate path = .ok loc) : d'.locate path = .ok loc := by
  unfold locate at h ⊢
  cases hcheck : Path.check path with
  | error e =>
    rw [hcheck] at h
    cases h
  | ok u =>
    rw [hcheck] at h
    rw [start_congr hkeeps.start]
    exact walk_of_keeps hkeeps h

/-- A file can be opened for writing exactly if its path leads somewhere and no directory and no
    engine stands there. -/
theorem locateFile_eq_ok_iff {d : Disk} {path : String} (hslash : Path.endsInSlash path = false)
    {loc : Location} :
    d.locateFile path = .ok loc ↔
      d.locate path = .ok loc ∧ d.node? loc ≠ some .directory ∧
        ∀ c, d.node? loc ≠ some (.engine c) := by
  unfold locateFile
  rw [hslash]
  simp only [Bool.false_eq_true, if_false]
  cases hlocate : d.locate path with
  | error e =>
    constructor
    · intro h
      cases h
    · rintro ⟨h, -⟩
      cases h
  | ok found =>
    simp only [bind, Except.bind]
    constructor
    · intro h
      split at h
      · cases h
      · cases h
      · rename_i hdirectory hengine
        cases h
        exact ⟨rfl, hdirectory, hengine⟩
    · rintro ⟨h, hdirectory, hengine⟩
      cases h
      cases hnode : d.node? loc with
      | none => rfl
      | some n =>
        cases n with
        | directory => exact absurd hnode hdirectory
        | file identity data => rfl
        | engine c => exact absurd hnode (hengine c)

/-- A path that may name a directory only leads to no file. -/
theorem endsInSlash_of_locateFile {d : Disk} {path : String} {loc : Location}
    (h : d.locateFile path = .ok loc) : Path.endsInSlash path = false := by
  cases hslash : Path.endsInSlash path with
  | false => rfl
  | true =>
    unfold locateFile at h
    rw [hslash] at h
    cases hcheck : Path.check path with
    | error e =>
      rw [hcheck] at h
      cases h
    | ok u =>
      rw [hcheck] at h
      cases hwalk : d.walk (d.start path) ((Path.names path).dropLast ++ [Path.selfName]) with
      | error e =>
        simp only [hwalk] at h
        cases h
      | ok above =>
        simp only [hwalk] at h
        cases h

/-- A path that leads to a file still does when the file has been written. -/
theorem locateFile_of_sameBut {d d' : Disk} {path : String} {loc : Location} {identity : Nat}
    {data : Bytes} (hloc : d.locateFile path = .ok loc) (hsame : SameBut loc d d')
    (hfile : d'.node? loc = some (.file identity data)) : d'.locateFile path = .ok loc := by
  have hslash := endsInSlash_of_locateFile hloc
  obtain ⟨hlocate, hdirectory, -⟩ := (locateFile_eq_ok_iff hslash).1 hloc
  apply (locateFile_eq_ok_iff hslash).2
  rw [hfile]
  exact ⟨locate_of_keeps (hsame.keepsDirectories hdirectory) hlocate, by simp, by simp⟩

/-- A file that a path leads to is read under that path. -/
theorem read_of_locateFile {d : Disk} {path : String} {loc : Location} {identity : Nat}
    {data : Bytes} (hloc : d.locateFile path = .ok loc)
    (hfile : d.node? loc = some (.file identity data)) : d.read path = .ok data := by
  have hslash := endsInSlash_of_locateFile hloc
  have hlocate := ((locateFile_eq_ok_iff hslash).1 hloc).1
  have hfind : d.find path = .ok (.file identity data) := by
    simp only [find, hlocate, bind, Except.bind, hfile, hslash]
    rfl
  simp only [read, hfind, bind, Except.bind]
  rfl

/-! ## Making directories -/

/-- Making directories leaves what is there and adds nothing but directories. -/
structure OnlyDirectoriesAdded (d d' : Disk) : Prop where
  /-- Relative paths start in the same place. -/
  start : d'.workingDirectory = d.workingDirectory
  /-- What stood somewhere still stands there. -/
  stays : ∀ loc n, d.node? loc = some n → d'.node? loc = some n
  /-- What is new is a directory. -/
  added : ∀ loc, d.node? loc = none → d'.node? loc = none ∨ d'.node? loc = some .directory

theorem OnlyDirectoriesAdded.refl (d : Disk) : OnlyDirectoriesAdded d d :=
  ⟨rfl, fun _ _ h => h, fun _ h => .inl h⟩

theorem OnlyDirectoriesAdded.trans {d₁ d₂ d₃ : Disk} (h₁ : OnlyDirectoriesAdded d₁ d₂)
    (h₂ : OnlyDirectoriesAdded d₂ d₃) : OnlyDirectoriesAdded d₁ d₃ where
  start := h₂.start.trans h₁.start
  stays loc n h := h₂.stays loc n (h₁.stays loc n h)
  added loc h := by
    rcases h₁.added loc h with hnone | hdirectory
    · exact h₂.added loc hnone
    · exact .inr (h₂.stays loc _ hdirectory)

theorem OnlyDirectoriesAdded.bytesAt {d d' : Disk} (h : OnlyDirectoriesAdded d d')
    (loc : Location) : d'.bytesAt loc = d.bytesAt loc := by
  -- A directory has no bytes, so a new one shows as many as there were before it.
  cases hnode : d.node? loc with
  | some n => exact bytesAt_congr ((h.stays loc n hnode).trans hnode.symm)
  | none =>
    rcases h.added loc hnode with hnone | hdirectory
    · exact bytesAt_congr (hnone.trans hnode.symm)
    · simp [Disk.bytesAt, hnode, hdirectory]

theorem onlyDirectoriesAdded_put {d : Disk} {loc : Location} (h : d.node? loc = none) :
    OnlyDirectoriesAdded d (d.put loc .directory) where
  start := rfl
  stays other n hother := by
    have hne : other ≠ loc := fun e => by simp [e, h] at hother
    rw [node?_put, if_neg hne, hother]
  added other hother := by
    rw [node?_put]
    split
    · exact .inr rfl
    · exact .inl hother

theorem onlyDirectoriesAdded_makeAlong (d : Disk) (loc : Location) (making : Bool)
    (names : List String) : OnlyDirectoriesAdded d (d.makeAlong loc making names).2 := by
  induction names generalizing d loc making with
  | nil => exact .refl d
  | cons name names ih =>
    simp only [makeAlong]
    split
    · exact .refl d
    · split
      · exact ih d _ making
      · exact .refl d
      · rename_i hnone
        split
        · exact .refl d
        · exact (onlyDirectoriesAdded_put hnone).trans (ih _ _ true)

theorem onlyDirectoriesAdded_makeDirectories (d : Disk) (path : String) :
    OnlyDirectoriesAdded d (d.makeDirectories path).2 := by
  unfold makeDirectories
  split
  · exact .refl d
  · split
    · exact .refl d
    · exact onlyDirectoriesAdded_makeAlong d _ false _

/-- Directories that were made are found there on every disk that keeps them. -/
theorem makeAlong_of_keeps {d d' : Disk} {loc : Location} {making : Bool} {names : List String}
    (h : (d.makeAlong loc making names).1 = .ok ())
    (hkeeps : KeepsDirectories (d.makeAlong loc making names).2 d') (making' : Bool) :
    d'.makeAlong loc making' names = (.ok (), d') := by
  -- Once a directory is made, the flag is set the first time but not the second, so each time has
  -- a flag of its own.
  induction names generalizing d loc making making' with
  | nil => rfl
  | cons name names ih =>
    simp only [makeAlong] at h hkeeps ⊢
    split at h
    · simp at h
    · rename_i hlong
      rw [if_neg hlong] at hkeeps ⊢
      split at h
      · rename_i hdirectory
        simp only [hdirectory] at hkeeps
        -- The directory was there, and what is made behind it leaves it there.
        have hadded := onlyDirectoriesAdded_makeAlong d (Path.step loc name) making names
        rw [hkeeps.directory _ (hadded.stays _ _ hdirectory)]
        exact ih h hkeeps making'
      · simp at h
      · rename_i hnone
        simp only [hnone] at hkeeps
        split at h
        · simp at h
        · rename_i hself
          rw [if_neg hself] at hkeeps
          -- The directory was made now, and is there from now on.
          have hput : (d.put (Path.step loc name) .directory).node? (Path.step loc name) =
              some .directory := by simp
          have hadded :=
            onlyDirectoriesAdded_makeAlong (d.put (Path.step loc name) .directory)
              (Path.step loc name) true names
          rw [hkeeps.directory _ (hadded.stays _ _ hput)]
          exact ih h hkeeps making'

/-- Directories that were made once are made again by doing nothing. -/
theorem makeDirectories_of_keeps {d d' : Disk} {path : String}
    (h : (d.makeDirectories path).1 = .ok ())
    (hkeeps : KeepsDirectories (d.makeDirectories path).2 d') :
    d'.makeDirectories path = (.ok (), d') := by
  have hstart : d'.start path = d.start path :=
    start_congr (hkeeps.start.trans (onlyDirectoriesAdded_makeDirectories d path).start) path
  unfold makeDirectories at h hkeeps ⊢
  split
  · rfl
  · rename_i hempty
    rw [if_neg hempty] at h hkeeps
    split
    · rename_i e hcheck
      simp [hcheck] at h
    · rename_i hcheck
      simp only [hcheck] at h hkeeps
      rw [hstart]
      exact makeAlong_of_keeps h hkeeps false

end ReplicaStore.Disk
