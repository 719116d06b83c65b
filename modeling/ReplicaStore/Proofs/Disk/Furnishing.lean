import ReplicaStore.Proofs.Disk.Below
import ReplicaStore.Proofs.RecordFile.AnyBytes

/-! # Furnishing a directory

    Who opens a component of the store finds below a directory what the component needs, or makes
    it: directories, engine files and record files. A place that is furnished in this way looks to
    who comes next as it did before: a directory that was missing could be made, and one that is
    there can be used; an engine file that was missing holds nothing, and so does a new one; and a
    record file without its torn tail has the records that it had.

    * `exists_rooted_of_isDirectory`: a directory can be furnished.
    * `Fixture`, `Fixture.Alike`: what a place is for, and when it looks the same.
    * `Furnished`: a disk after places of a plan were furnished, and nothing else was done.
    * `Rooted.makeDirectories_furnished`, `Rooted.openAt_furnished`: making a directory and opening
      a record file, told by what stands in their places, and what they leave. -/

namespace ReplicaStore.Disk

open RecordFile

variable {d d' d₁ d₂ : Disk} {root name path : String} {loc base : Location} {rel : List String}

/-! ## Paths that lead to a directory -/

theorem find_eq_directory_iff :
    d.find path = .ok .directory ↔
      ∃ loc, d.locate path = .ok loc ∧ d.node? loc = some .directory := by
  constructor
  · intro h
    obtain ⟨loc, hlocate, h⟩ := exists_of_bind_eq_ok h
    refine ⟨loc, hlocate, ?_⟩
    cases hnode : d.node? loc with
    | none =>
      rw [hnode] at h
      cases h
    | some n =>
      rw [hnode] at h
      -- A file is found only by a path without a slash at its end, and never as a directory.
      cases n with
      | directory => rfl
      | file identity data =>
        simp only at h
        split at h <;> cases h
      | engine c =>
        simp only at h
        split at h <;> cases h
  · rintro ⟨loc, hlocate, hnode⟩
    unfold find
    rw [hlocate, ok_bind, hnode]
    rfl

theorem isDirectory_iff :
    d.isDirectory path = true ↔
      ∃ loc, d.locate path = .ok loc ∧ d.node? loc = some .directory := by
  rw [← find_eq_directory_iff]
  unfold isDirectory
  constructor
  · intro h
    split at h
    · assumption
    · cases h
  · intro h
    rw [h]

theorem isDirectory_of_keeps (hkeeps : KeepsDirectories d d') (h : d.isDirectory path = true) :
    d'.isDirectory path = true := by
  obtain ⟨loc, hlocate, hnode⟩ := isDirectory_iff.1 h
  exact isDirectory_iff.2 ⟨loc, locate_of_keeps hkeeps hlocate, hkeeps.directory loc hnode⟩

/-- Where a path leads to a directory, nothing is missing on the way. -/
theorem exists_rooted_of_isDirectory (h : d.isDirectory root = true) :
    ∃ loc, Rooted root loc d := by
  obtain ⟨loc, hlocate, hnode⟩ := isDirectory_iff.1 h
  obtain ⟨u, hcheck, hwalk⟩ := exists_of_bind_eq_ok hlocate
  refine ⟨loc, ?_, hwalk, hnode⟩
  unfold makeDirectories
  by_cases hempty : root = ""
  · rw [if_pos hempty]
  rw [if_neg hempty, hcheck]
  show d.makeAlong (d.start root) false (Path.directoryNames root) = (.ok (), d)
  -- The walk meets no name that is missing, so making the directories of the path makes none.
  have hplain := makeAlong_of_walk hwalk hnode false
  unfold Path.directoryNames
  simp only
  split
  · -- A final dot is entered once more.
    have hdot : Path.isTooLong Path.selfName = false := by decide
    rw [hplain]
    simp only [makeAlong, hdot, Bool.false_eq_true, if_false, Path.step_selfName, hnode]
  · have hdone := hplain []
    rw [List.append_nil] at hdone
    exact hdone

/-! ## Fixtures -/

/-- What a place is for. -/
inductive Fixture where
  /-- A directory that the component makes. -/
  | directory
  | engine
  | records
deriving DecidableEq, Repr

/-- Whether a directory is there or can be made. -/
def admitsDirectory : Option Node → Bool
  | none | some .directory => true
  | some _ => false

/-- What opening an engine file finds. -/
def engineFound : Option Node → Except EngineError Contents
  | none | some (.file _ []) => .ok Contents.empty
  | some (.engine c) => .ok c
  | some .directory => .error (.file .isDirectory)
  | some (.file _ (_ :: _)) => .error (.file (.other "invalid data"))

/-- What opening a record file finds: what is left of its bytes, or damage. -/
def recordsFound :
    Option Node → Except OsError (Except (Frame.Damage × Nat) (List Bytes × Bytes))
  | none => .ok (recover [])
  | some (.file _ data) => .ok (recover data)
  | some .directory => .error .isDirectory
  | some (.engine _) => .error (.other "the file belongs to an engine")

/-- Whether a place looks the same to who opens it. -/
def Fixture.Alike : Fixture → Option Node → Option Node → Prop
  | .directory, m, n => admitsDirectory m = admitsDirectory n
  | .engine, m, n => engineFound m = engineFound n
  | .records, m, n => recordsFound m = recordsFound n

variable {fixture : Fixture} {m n : Option Node}

theorem Fixture.Alike.refl (fixture : Fixture) (n : Option Node) : fixture.Alike n n := by
  cases fixture <;> rfl

theorem Fixture.Alike.trans {l : Option Node} (h : fixture.Alike l m) (h' : fixture.Alike m n) :
    fixture.Alike l n := by
  cases fixture with
  | directory => exact Eq.trans h h'
  | engine => exact Eq.trans h h'
  | records => exact Eq.trans h h'

/-- Only a place for a directory may become one unnoticed. -/
theorem Fixture.Alike.eq_directory (h : fixture.Alike n (some .directory)) :
    fixture = .directory ∨ n = some .directory := by
  cases fixture with
  | directory => exact .inl rfl
  | engine =>
    have hfound : engineFound n = .error (.file .isDirectory) := h
    -- Nothing but a directory fails as a directory does.
    unfold engineFound at hfound
    split at hfound
    · cases hfound
    · cases hfound
    · cases hfound
    · exact .inr rfl
    · cases hfound
  | records =>
    have hfound : recordsFound n = .error .isDirectory := h
    unfold recordsFound at hfound
    split at hfound
    · cases hfound
    · cases hfound
    · exact .inr rfl
    · cases hfound

/-! ## Plans -/

/-- What is furnished below a directory: the places, and what each of them is for. -/
abbrev Plan := List String → Option Fixture

variable {plan : Plan}

/-- Whether a disk is another one in which places of a plan were furnished. No directory is gone,
    everything outside the plan stands as before, and what is in the plan looks the same. -/
structure Furnished (plan : Plan) (base : Location) (d d' : Disk) : Prop where
  keeps : KeepsDirectories d d'
  node : ∀ loc, d'.node? loc = d.node? loc ∨ ∃ rel fixture, loc = base ++ rel ∧
    plan rel = some fixture ∧ fixture.Alike (d.node? loc) (d'.node? loc)

theorem Furnished.refl (plan : Plan) (base : Location) (d : Disk) : Furnished plan base d d :=
  ⟨.refl d, fun _ => .inl rfl⟩

theorem Furnished.trans (h₁ : Furnished plan base d d₁) (h₂ : Furnished plan base d₁ d₂) :
    Furnished plan base d d₂ := by
  refine ⟨h₁.keeps.trans h₂.keeps, ?_⟩
  intro loc
  -- A place that only one of the two furnishes looks as that one left it.
  obtain hsame | ⟨rel, fixture, hloc, hplan, halike⟩ := h₁.node loc
  · rw [← hsame]
    exact h₂.node loc
  obtain hsame' | ⟨rel', fixture', hloc', hplan', halike'⟩ := h₂.node loc
  · rw [hsame']
    exact .inr ⟨rel, fixture, hloc, hplan, halike⟩
  · -- A place is furnished for one thing only.
    obtain rfl : rel = rel' := List.append_cancel_left (hloc.symm.trans hloc')
    obtain rfl : fixture = fixture' := Option.some.inj (hplan.symm.trans hplan')
    exact .inr ⟨rel, fixture, hloc, hplan, halike.trans halike'⟩

/-- Furnishing one place. -/
theorem Furnished.of_sameBut (hplan : plan rel = some fixture)
    (hsame : SameBut (base ++ rel) d d')
    (halike : fixture.Alike (d.node? (base ++ rel)) (d'.node? (base ++ rel)))
    (hkeeps : d.node? (base ++ rel) = some .directory → d'.node? (base ++ rel) = some .directory) :
    Furnished plan base d d' := by
  refine ⟨⟨hsame.start, ?_⟩, ?_⟩
  · intro loc hdirectory
    by_cases hloc : loc = base ++ rel
    · rw [hloc] at hdirectory ⊢
      exact hkeeps hdirectory
    · rw [hsame.node loc hloc]
      exact hdirectory
  · intro loc
    by_cases hloc : loc = base ++ rel
    · rw [hloc]
      exact .inr ⟨rel, fixture, rfl, hplan, halike⟩
    · exact .inl (hsame.node loc hloc)

/-- A place that the plan has for one thing, or not at all, looks the same. -/
theorem Furnished.alike (h : Furnished plan base d d')
    (hplan : plan rel = some fixture ∨ plan rel = none) :
    fixture.Alike (d.node? (base ++ rel)) (d'.node? (base ++ rel)) := by
  obtain hsame | ⟨rel', fixture', hloc, hplan', halike⟩ := h.node (base ++ rel)
  · rw [hsame]
    exact .refl fixture _
  -- The place was furnished: for what the plan has it for, so a place outside the plan was not.
  obtain rfl : rel = rel' := List.append_cancel_left hloc
  obtain hplan | hplan := hplan
  · obtain rfl : fixture = fixture' := Option.some.inj (hplan.symm.trans hplan')
    exact halike
  · rw [hplan] at hplan'
    cases hplan'

/-- A directory that was not there before stands where the plan has one. -/
theorem Furnished.new_directory (h : Furnished plan base d d')
    (hafter : d'.node? loc = some .directory) :
    d.node? loc = some .directory ∨ ∃ rel, loc = base ++ rel ∧ plan rel = some .directory := by
  obtain hsame | ⟨rel, fixture, hloc, hplan, halike⟩ := h.node loc
  · left
    rw [← hsame]
    exact hafter
  rw [hafter] at halike
  obtain rfl | hbefore := halike.eq_directory
  · exact .inr ⟨rel, hloc, hplan⟩
  · exact .inl hbefore

/-! ## Directories -/

/-- What comes of making a directory, by what stands in its place. -/
def making (path name : String) (n : Option Node) : Except OsError Unit := do
  Path.check path
  if Path.isTooLong name then throw .nameTooLong
  if admitsDirectory n then return () else throw .alreadyExists

theorem making_congr (h : Fixture.directory.Alike m n) (path name : String) :
    making path name m = making path name n := by
  have hadmits : admitsDirectory m = admitsDirectory n := h
  unfold making
  rw [hadmits]

theorem OnlyDirectoriesAdded.keepsDirectories (h : OnlyDirectoriesAdded d d') :
    KeepsDirectories d d' :=
  ⟨h.start, fun loc hdirectory => h.stays loc _ hdirectory⟩

/-- A directory that was made below a rooted path is rooted itself. -/
theorem Rooted.join (hr : Rooted root loc d) (hname : Path.IsPlain name)
    (hmade : d.makeDirectories (Path.join root name) = (.ok (), d'))
    (hshort : Path.isTooLong name = false) (hnode : d'.node? (loc ++ [name]) = some .directory) :
    Rooted (Path.join root name) (loc ++ [name]) d' := by
  have hadded := onlyDirectoriesAdded_makeDirectories d (Path.join root name)
  rw [hmade] at hadded
  have hr' := hr.of_keeps hadded.keepsDirectories
  refine ⟨?_, ?_, hnode⟩
  · apply makeDirectories_of_keeps (d := d)
    · rw [hmade]
    · rw [hmade]
      exact .refl d'
  · -- A path that is joined starts where its base does, and goes on by one name.
    have hstart : d'.start (Path.join root name) = d'.start root := by
      simp only [start, Path.isAbsolute_join root hname]
    rw [hstart, Path.names_join root hname, walk_append hr'.leads]
    simp only [walk, hr'.directory, hshort, Bool.false_eq_true, if_false, hname.step_eq]

/-- Making a directory below a rooted path, where the plan has one or one is there already. -/
theorem Rooted.makeDirectories_furnished (hr : Rooted root (base ++ rel) d)
    (hname : Path.IsPlain name)
    (hplan : plan (rel ++ [name]) = some .directory ∨
      d.node? (base ++ (rel ++ [name])) = some .directory) :
    ∃ d', d.makeDirectories (Path.join root name) =
        (making (Path.join root name) name (d.node? (base ++ (rel ++ [name]))), d') ∧
      Furnished plan base d d' ∧
      (making (Path.join root name) name (d.node? (base ++ (rel ++ [name]))) = .ok () →
        Rooted (Path.join root name) (base ++ (rel ++ [name])) d') ∧
      (d.node? (base ++ (rel ++ [name])) = some .directory → d' = d) := by
  have hmake := hr.makeDirectories_join_eq hname
  rw [← List.append_assoc] at hplan ⊢
  unfold making
  -- The cases are those of `making`: a path or a name that is refused, then what stands in the
  -- place.
  cases hcheck : Path.check (Path.join root name) with
  | error e =>
    rw [hcheck] at hmake
    exact ⟨d, hmake, .refl plan base d, (fun hok => by cases hok), fun _ => rfl⟩
  | ok u =>
    rw [hcheck] at hmake
    simp only [makeAlong, hname.step_eq] at hmake
    cases hlong : Path.isTooLong name with
    | true =>
      rw [hlong, if_pos rfl] at hmake
      exact ⟨d, hmake, .refl plan base d, (fun hok => by cases hok), fun _ => rfl⟩
    | false =>
      rw [hlong, if_neg Bool.false_ne_true] at hmake
      cases hnode : d.node? (base ++ rel ++ [name]) with
      | none =>
        rw [hnode] at hmake hplan
        have hnew : (d.put (base ++ rel ++ [name]) .directory).node? (base ++ rel ++ [name]) =
            some .directory := by simp
        -- Only here is something made, so only here must the plan have the place.
        have hplan : plan (rel ++ [name]) = some .directory :=
          hplan.resolve_right fun heq => by cases heq
        refine ⟨d.put (base ++ rel ++ [name]) .directory, hmake, ?_,
          fun _ => hr.join hname hmake hlong hnew, (fun heq => by cases heq)⟩
        rw [List.append_assoc] at hnode hnew ⊢
        apply Furnished.of_sameBut hplan (sameBut_put d _ _)
        · rw [hnode, hnew]
          rfl
        · intro hdirectory
          exact hnew
      | some n =>
        rw [hnode] at hmake
        cases n with
        | directory =>
          exact ⟨d, hmake, .refl plan base d, fun _ => hr.join hname hmake hlong hnode,
            fun _ => rfl⟩
        | file identity data =>
          exact ⟨d, hmake, .refl plan base d, (fun hok => by cases hok), fun _ => rfl⟩
        | engine c =>
          exact ⟨d, hmake, .refl plan base d, (fun hok => by cases hok), fun _ => rfl⟩

/-! ## Files -/

/-- A file in a rooted directory is found, whether it is there or not, if its path may be used. -/
theorem Rooted.locate_join (hr : Rooted root loc d) (hname : Path.IsPlain name)
    (hshort : Path.isTooLong name = false) :
    d.locate (Path.join root name) =
      (Path.check (Path.join root name)).map fun _ => loc ++ [name] := by
  have hstart : d.start (Path.join root name) = d.start root := by
    simp only [start, Path.isAbsolute_join root hname]
  unfold locate
  rw [hstart, Path.names_join root hname, walk_append hr.leads]
  simp only [walk, hr.directory, hshort, Bool.false_eq_true, if_false, hname.step_eq]
  cases Path.check (Path.join root name) with
  | error e => rfl
  | ok u => rfl

/-- What comes of opening a record file, by what stands in its place. -/
def openingRecords (path : String) (n : Option Node) : Except Error (List Bytes) := do
  (Path.check path).mapError (.cannotOpen path)
  match ← (recordsFound n).mapError (.cannotOpen path) with
  | .error (damage, offset) => throw (.damagedFile path offset damage)
  | .ok (payloads, _) => return payloads

theorem openingRecords_congr (h : Fixture.records.Alike m n) (path : String) :
    openingRecords path m = openingRecords path n := by
  have hfound : recordsFound m = recordsFound n := h
  unfold openingRecords
  rw [hfound]

/-- The bytes that a file recovers to recover to themselves. -/
theorem recover_of_recover {bs kept : Bytes} {payloads : List Bytes}
    (h : recover bs = .ok (payloads, kept)) : recover kept = .ok (payloads, kept) := by
  obtain ⟨-, rfl, rfl⟩ := scan_of_recover h
  exact recover_encodeAll (Frame.fit_scan bs)

theorem recordsFound_of_bytesAt (h : ∀ e, recordsFound (d.node? loc) ≠ .error e) :
    recordsFound (d.node? loc) = .ok (recover (d.bytesAt loc)) := by
  unfold bytesAt
  -- A missing file recovers as an empty one does.
  cases hnode : d.node? loc with
  | none => rfl
  | some n =>
    cases n with
    | directory => exact absurd (congrArg recordsFound hnode) (h .isDirectory)
    | file identity data => rfl
    | engine c => exact absurd (congrArg recordsFound hnode) (h _)

/-- Only bytes that are there can be damaged. -/
theorem exists_file_of_damage {fault : Frame.Damage × Nat}
    (h : recordsFound n = .ok (.error fault)) :
    ∃ identity data, n = some (.file identity data) ∧ recover data = .error fault := by
  unfold recordsFound at h
  split at h
  · -- A file that is missing has no byte, and no bytes are an undamaged list of frames.
    have hnone : recover (Frame.encodeAll []) = .ok ([], Frame.encodeAll []) :=
      recover_encodeAll (fun p hp => absurd hp (List.not_mem_nil))
    have hfault : recover (Frame.encodeAll []) = .error fault := Except.ok.inj h
    rw [hnone] at hfault
    cases hfault
  · exact ⟨_, _, rfl, Except.ok.inj h⟩
  · cases h
  · cases h

theorem locateFile_of_locate (hslash : Path.endsInSlash path = false)
    (hlocate : d.locate path = .ok loc) :
    d.locateFile path = (recordsFound (d.node? loc)).map fun _ => loc := by
  unfold locateFile
  rw [hslash, hlocate]
  simp only [Bool.false_eq_true, if_false, ok_bind]
  cases d.node? loc with
  | none => rfl
  | some n =>
    cases n with
    | directory => rfl
    | file identity data => rfl
    | engine c => rfl

theorem locateFile_of_locate_error (hslash : Path.endsInSlash path = false) {e : OsError}
    (hlocate : d.locate path = .error e) : d.locateFile path = .error e := by
  unfold locateFile
  rw [hslash, hlocate]
  rfl

/-- Opening a record file whose bytes recover cuts what follows them, and that looks the same. -/
theorem furnished_openAt_of_recover (hfile : d.locateFile path = .ok (base ++ rel))
    (hplan : plan rel = some .records) {payloads : List Bytes} {kept : Bytes}
    (hfound : recordsFound (d.node? (base ++ rel)) = .ok (.ok (payloads, kept))) :
    ((openAt path).perform d).1.map Prod.snd = .ok payloads ∧
      Furnished plan base d ((openAt path).perform d).2 := by
  have hbytes := recordsFound_of_bytesAt (fun e he => by
    rw [hfound] at he
    cases he)
  have hrecover : recover (d.bytesAt (base ++ rel)) = .ok (payloads, kept) :=
    Except.ok.inj (hbytes.symm.trans hfound)
  obtain ⟨f, d', hopen, -, hlocation, hplace, hsame⟩ := perform_openAt_of_recover hfile hrecover
  have hnode := hplace.node
  rw [hlocation] at hnode
  rw [hopen]
  -- The file is left with the bytes that were kept, and these recover to themselves.
  refine ⟨rfl, Furnished.of_sameBut hplan hsame ?_ ?_⟩
  · show recordsFound _ = recordsFound _
    rw [hnode, hfound]
    exact congrArg Except.ok (recover_of_recover hrecover).symm
  · intro hdirectory
    rw [hdirectory] at hfound
    cases hfound

/-- Opening a record file in a rooted directory, where the plan has one. -/
theorem Rooted.openAt_furnished (hr : Rooted root (base ++ rel) d) (hname : Path.IsPlain name)
    (hshort : Path.isTooLong name = false) (hplan : plan (rel ++ [name]) = some .records) :
    ((openAt (Path.join root name)).perform d).1.map Prod.snd =
        openingRecords (Path.join root name) (d.node? (base ++ (rel ++ [name]))) ∧
      Furnished plan base d ((openAt (Path.join root name)).perform d).2 := by
  have hlocate := hr.locate_join hname hshort
  have hslash := Path.endsInSlash_join root hname
  rw [List.append_assoc] at hlocate
  unfold openingRecords
  cases hcheck : Path.check (Path.join root name) with
  | error e =>
    rw [hcheck] at hlocate
    rw [perform_openAt_of_error (locateFile_of_locate_error hslash hlocate)]
    exact ⟨rfl, .refl plan base d⟩
  | ok u =>
    rw [hcheck] at hlocate
    have hfile := locateFile_of_locate hslash hlocate
    -- Nothing is written unless the bytes recover: a place that is no file and damaged bytes stay
    -- as they are.
    rcases hfound : recordsFound (d.node? (base ++ (rel ++ [name]))) with
      e | ⟨damage, offset⟩ | ⟨payloads, kept⟩
    · rw [hfound] at hfile
      rw [perform_openAt_of_error hfile]
      exact ⟨rfl, .refl plan base d⟩
    · obtain ⟨identity, data, hnode, hdamage⟩ := exists_file_of_damage hfound
      rw [hfound] at hfile
      rw [perform_openAt_of_file hfile hnode, hdamage]
      exact ⟨rfl, .refl plan base d⟩
    · rw [hfound] at hfile
      exact furnished_openAt_of_recover hfile hplan hfound

end ReplicaStore.Disk
