import ReplicaStore.Proofs.Action
import ReplicaStore.Proofs.Disk.Passage

/-! # Directories below a directory

    Where a path leads to a directory, its extension by one name leads to what stands under that
    name, and making the directories of the longer path makes that one directory at most. What the
    system refuses depends on the texts alone: on the lengths of the path and of the name.

    * `Rooted`: a path that leads to a directory.
    * `Rooted.makeDirectories_join`: making a directory below it.
    * `Rooted.locate_join_join`: finding a file in that directory. -/

namespace ReplicaStore

/-! ## Checks of joined paths -/

namespace Path

variable {base name : String}

theorem holdsNul_join (hname : IsPlain name) (hbase : holdsNul base = false)
    (hnul : holdsNul name = false) : holdsNul (join base name) = false := by
  simp only [holdsNul, List.contains_eq_mem, decide_eq_false_iff_not] at hbase hnul ⊢
  -- The joined text is the name alone, or the base, a slash and the name.
  rcases toList_join base hname with ⟨hjoin, -⟩ | ⟨cs, hjoin, hcs⟩
  · rw [hjoin]
    exact hnul
  · have hfront : '\x00' ∉ cs := by
      intro hmem
      apply hbase
      rcases hcs with ⟨hcs, -⟩ | hcs
      · rw [hcs]
        exact hmem
      · rw [hcs]
        exact List.mem_append_left _ hmem
    rw [hjoin, List.mem_append, List.mem_cons]
    rintro (hmem | hmem | hmem)
    · exact hfront hmem
    · cases hmem
    · exact hnul hmem

theorem join_ne_empty (hname : IsPlain name) : join base name ≠ "" := by
  intro hempty
  have hnames := names_join base hname
  rw [hempty] at hnames
  have hnone : names "" = [] := rfl
  rw [hnone] at hnames
  cases hbase : names base with
  | nil =>
    rw [hbase] at hnames
    cases hnames
  | cons n ns =>
    rw [hbase] at hnames
    cases hnames

/-- Of a path without NUL, only the length matters to the system. -/
theorem check_join (hname : IsPlain name) (hbase : holdsNul base = false)
    (hnul : holdsNul name = false) :
    check (join base name) =
      if pathLimit < (Utf8.encodeText (join base name)).length then .error .nameTooLong
      else .ok () := by
  unfold check
  rw [holdsNul_join hname hbase hnul]
  simp only [Bool.false_eq_true, if_false, if_neg (join_ne_empty hname)]

end Path

namespace Disk

variable {d d' : Disk} {loc last : Location} {root name file : String}

/-! ## Walks that end in a directory -/

theorem walk_append {names names' : List String} (h : d.walk loc names = .ok last) :
    d.walk loc (names ++ names') = d.walk last names' := by
  -- By the first names: each is a step of both walks.
  induction names generalizing loc with
  | nil =>
    cases h
    rfl
  | cons name names ih =>
    simp only [walk] at h
    simp only [List.cons_append, walk]
    split at h
    · cases h
    · split at h
      · cases h
      · rename_i hlong
        rw [if_neg hlong]
        exact ih h
    · cases h

/-- A walk to a directory starts in one. -/
theorem directory_of_walk {names : List String} (h : d.walk loc names = .ok last)
    (hlast : d.node? last = some .directory) : d.node? loc = some .directory := by
  -- A walk of a step or more has looked at its start, and goes on from directories only.
  cases names with
  | nil =>
    cases h
    exact hlast
  | cons name names =>
    simp only [walk] at h
    split at h
    · cases h
    · assumption
    · cases h

/-- Along a walk to a directory, making directories finds all of them there. -/
theorem makeAlong_of_walk {names : List String} (h : d.walk loc names = .ok last)
    (hlast : d.node? last = some .directory) (making : Bool) (more : List String) :
    d.makeAlong loc making (names.filter (· ≠ Path.selfName) ++ more) =
      d.makeAlong last making more := by
  -- A single dot is left out of the names that are made, and leads nowhere on the walk.
  induction names generalizing loc with
  | nil =>
    cases h
    rfl
  | cons first names ih =>
    simp only [walk] at h
    split at h
    · cases h
    · split at h
      · cases h
      · rename_i hlong
        by_cases hself : first = Path.selfName
        · rw [hself, Path.step_selfName] at h
          rw [List.filter_cons_of_neg (by simp [hself])]
          exact ih h
        · -- The name leads to a directory, since the walk goes on from there to one.
          have hchild := directory_of_walk h hlast
          rw [List.filter_cons_of_pos (by simpa using hself), List.cons_append]
          simp only [makeAlong, if_neg hlong, hchild]
          exact ih h
    · cases h

/-! ## Rooted paths -/

/-- Whether a path leads to a directory that is there, with no directory missing on the way. -/
structure Rooted (root : String) (loc : Location) (d : Disk) : Prop where
  made : d.makeDirectories root = (.ok (), d)
  leads : d.walk (d.start root) (Path.names root) = .ok loc
  directory : d.node? loc = some .directory

theorem Rooted.of_keeps (hr : Rooted root loc d) (hkeeps : KeepsDirectories d d') :
    Rooted root loc d' := by
  constructor
  · apply makeDirectories_of_keeps (d := d)
    · rw [hr.made]
    · rw [hr.made]
      exact hkeeps
  · rw [start_congr hkeeps.start]
    exact walk_of_keeps hkeeps hr.leads
  · exact hkeeps.directory loc hr.directory

theorem Rooted.holdsNul (hr : Rooted root loc d) : Path.holdsNul root = false := by
  have hmade := hr.made
  unfold makeDirectories at hmade
  by_cases hempty : root = ""
  · rw [hempty]
    rfl
  rw [if_neg hempty] at hmade
  -- With a NUL the check fails, and no directory is made.
  cases hnul : Path.holdsNul root with
  | false => rfl
  | true =>
    have hcheck : Path.check root = .error .nulInPath := by
      unfold Path.check
      rw [if_pos hnul]
    simp only [hcheck] at hmade
    cases hmade

/-- Where a path leads from a rooted one. -/
theorem Rooted.resolve_join (hr : Rooted root loc d) (hname : Path.IsPlain name) :
    d.resolve (Path.join root name) = loc ++ [name] := by
  rw [Disk.resolve_join d root hname]
  have hroot : d.resolve root = loc := (eq_foldl_of_walk hr.leads).symm
  rw [hroot]

/-- Making the directories of a path with one more name comes down to that name. -/
theorem Rooted.makeDirectories_join_eq (hr : Rooted root loc d) (hname : Path.IsPlain name) :
    d.makeDirectories (Path.join root name) =
      match Path.check (Path.join root name) with
      | .error e => (.error e, d)
      | .ok () => d.makeAlong loc false [name] := by
  -- A plain name is no dot, so it is the last one of the names that are made.
  have hnames : Path.directoryNames (Path.join root name) =
      (Path.names root).filter (· ≠ Path.selfName) ++ [name] := by
    unfold Path.directoryNames
    simp only [Path.names_join root hname, List.filter_append, List.getLast?_append,
      List.getLast?_singleton, Option.some_or, Option.some.injEq]
    rw [if_neg hname.2.2.1, List.filter_cons_of_pos (by simpa using hname.2.2.1), List.filter_nil]
  have hstart : d.start (Path.join root name) = d.start root := by
    simp only [start, Path.isAbsolute_join root hname]
  unfold makeDirectories
  rw [if_neg (Path.join_ne_empty hname)]
  cases Path.check (Path.join root name) with
  | error e => rfl
  | ok u =>
    show d.makeAlong (d.start (Path.join root name)) false _ = _
    rw [hnames, hstart]
    exact makeAlong_of_walk hr.leads hr.directory false [name]

theorem Rooted.makeDirectories_join_of_check (hr : Rooted root loc d) (hname : Path.IsPlain name)
    {e : OsError} (hcheck : Path.check (Path.join root name) = .error e) :
    d.makeDirectories (Path.join root name) = (.error e, d) := by
  rw [hr.makeDirectories_join_eq hname, hcheck]

theorem Rooted.makeDirectories_join_of_tooLong (hr : Rooted root loc d) (hname : Path.IsPlain name)
    (hcheck : Path.check (Path.join root name) = .ok ()) (hlong : Path.isTooLong name = true) :
    d.makeDirectories (Path.join root name) = (.error .nameTooLong, d) := by
  rw [hr.makeDirectories_join_eq hname, hcheck]
  simp only [makeAlong, hlong, if_true]

/-- A directory is made below a rooted path, where none is yet, and nothing else. -/
theorem Rooted.makeDirectories_join (hr : Rooted root loc d) (hname : Path.IsPlain name)
    (hcheck : Path.check (Path.join root name) = .ok ()) (hshort : Path.isTooLong name = false)
    (hnode : d.node? (loc ++ [name]) = none ∨ d.node? (loc ++ [name]) = some .directory) :
    ∃ d', d.makeDirectories (Path.join root name) = (.ok (), d') ∧
      SameBut (loc ++ [name]) d d' ∧ d'.node? (loc ++ [name]) = some .directory := by
  rw [hr.makeDirectories_join_eq hname, hcheck]
  simp only [makeAlong, hshort, Bool.false_eq_true, if_false, hname.step_eq]
  -- Where the directory is there already, the disk stays.
  rcases hnode with hnone | hdirectory
  · rw [hnone]
    exact ⟨_, rfl, sameBut_put d _ _, by simp⟩
  · rw [hdirectory]
    exact ⟨d, rfl, .refl _ d, hdirectory⟩

/-- A file in a directory below a rooted path is found, whether it is there or not. -/
theorem Rooted.locate_join_join (hr : Rooted root loc d) (hname : Path.IsPlain name)
    (hshort : Path.isTooLong name = false) (hnode : d.node? (loc ++ [name]) = some .directory)
    (hfile : Path.IsPlain file) (hshort' : Path.isTooLong file = false)
    (hcheck : Path.check (Path.join (Path.join root name) file) = .ok ()) :
    d.locate (Path.join (Path.join root name) file) = .ok (loc ++ [name, file]) := by
  have hstart : d.start (Path.join (Path.join root name) file) = d.start root := by
    simp only [start, Path.isAbsolute_join _ hfile, Path.isAbsolute_join root hname]
  unfold locate
  rw [hcheck, ok_bind, hstart, Path.names_join _ hfile, Path.names_join root hname,
    List.append_assoc, walk_append hr.leads]
  simp only [List.singleton_append, walk, hr.directory, hshort, hshort', Bool.false_eq_true,
    if_false, hname.step_eq, hnode, hfile.step_eq, List.append_assoc]

end Disk

end ReplicaStore
