import ReplicaStore.CommandLine.Run
import ReplicaStore.Proofs.Engine.Furnishing
import ReplicaStore.Proofs.Namespace.Directories

/-! # The layout of a data directory

    What a data directory holds is filed under fixed names: the log, the metadata and the database
    have a directory each, every namespace has one in that of the database, and the files of engines
    and of records have names of their own. So the last name of a place tells what the place is for,
    from wherever one looks at it, and two disks look alike if every place does by its last name.

    * `fixtureNamed`: what a place is for, by its name.
    * `storePlan`: what is furnished below a data directory.
    * `LooksAlike`: two disks on which every place looks the same.
    * `looksAlike_of_furnished`: a disk still looks the same when a data directory was furnished. -/

namespace ReplicaStore.CommandLine

open Disk Host
open Config (metadataDirectoryName databaseDirectoryName)
open Metadata (termFileName voteFileName rootFileName)

variable {d d' : Disk} {base : Location} {root name : String} {rel : List String}
  {fixture : Fixture}

/-! ## Names and places -/

def recordsNames : List String := [termFileName, voteFileName, rootFileName]

/-- What a place is for, by its name. -/
def fixtureNamed (name : String) : Fixture :=
  if name = engineFileName then .engine
  else if name ∈ recordsNames then .records
  else .directory

/-- Every place below a directory, for what its name is for. -/
def namePlan : Plan := fun rel => rel.getLast?.map fixtureNamed

/-- Whether a place belongs to what is furnished below a data directory. -/
def isStorePlace : List String → Bool
  | [name] =>
    name = LogHandle.directoryName ∨ name = metadataDirectoryName ∨ name = databaseDirectoryName
  | [parent, name] =>
    parent = LogHandle.directoryName ∧ name = engineFileName ∨
      parent = metadataDirectoryName ∧ name ∈ recordsNames ∨
      parent = databaseDirectoryName ∧
        name = Database.directoryName Database.defaultNamespace
  | [parent, _, name] => parent = databaseDirectoryName ∧ name = engineFileName
  | _ => false

/-- What is furnished below a data directory: the directories of the log, of the metadata, of the
    database and of its default namespace, and the files of all of them. The directories of other
    namespaces are not. -/
def storePlan : Plan := fun rel => if isStorePlace rel then namePlan rel else none

theorem storePlan_eq_some_iff :
    storePlan rel = some fixture ↔ isStorePlace rel = true ∧ namePlan rel = some fixture := by
  unfold storePlan
  exact Option.ite_none_right_eq_some

theorem namePlan_append (rel : List String) (name : String) :
    namePlan (rel ++ [name]) = some (fixtureNamed name) := by
  unfold namePlan
  rw [List.getLast?_append, List.getLast?_singleton]
  rfl

theorem namePlan_append_of_eq_some (h : namePlan rel = some fixture) (base : Location) :
    namePlan (base ++ rel) = some fixture := by
  obtain ⟨last, hlast, hname⟩ := Option.map_eq_some_iff.1 h
  unfold namePlan
  rw [List.getLast?_append, hlast]
  exact congrArg some hname

theorem fixtureNamed_of_mem (h : name ∈ recordsNames) : fixtureNamed name = .records := by
  simp only [recordsNames, List.mem_cons, List.not_mem_nil, or_false] at h
  obtain rfl | rfl | rfl := h
  · rfl
  · rfl
  · rfl

/-- The name of a namespace's directory is the name of no file. -/
theorem fixtureNamed_directoryName (name : String) :
    fixtureNamed (Database.directoryName name) = .directory := by
  -- Every such name has an `@`, which sets it apart from the fixed names.
  have hat : '@' ∈ (Database.directoryName name).toList := by
    rw [Database.toList_directoryName]
    simp
  have hfiles : ∀ file ∈ engineFileName :: recordsNames, '@' ∉ file.toList := by decide
  have hother : Database.directoryName name ∉ engineFileName :: recordsNames :=
    fun hmem => hfiles _ hmem hat
  rw [List.mem_cons, not_or] at hother
  unfold fixtureNamed
  rw [if_neg hother.1, if_neg hother.2]

/-- Every directory that is furnished has one of four places. -/
theorem storePlan_directory (h : storePlan rel = some .directory) :
    rel = [LogHandle.directoryName] ∨ rel = [metadataDirectoryName] ∨
      rel = [databaseDirectoryName] ∨
      rel = [databaseDirectoryName, Database.directoryName Database.defaultNamespace] := by
  obtain ⟨hplace, hname⟩ := storePlan_eq_some_iff.1 h
  -- By the depth of the place: two levels hold directories, and what is deeper is a file.
  unfold isStorePlace at hplace
  split at hplace
  · rw [decide_eq_true_eq] at hplace
    obtain rfl | rfl | rfl := hplace
    · exact .inl rfl
    · exact .inr (.inl rfl)
    · exact .inr (.inr (.inl rfl))
  · rename_i parent name
    have hdirectory : fixtureNamed name = .directory := Option.some.inj hname
    rw [decide_eq_true_eq] at hplace
    obtain ⟨rfl, rfl⟩ | ⟨rfl, hmem⟩ | ⟨rfl, rfl⟩ := hplace
    · cases hdirectory
    · rw [fixtureNamed_of_mem hmem] at hdirectory
      cases hdirectory
    · exact .inr (.inr (.inr rfl))
  · rename_i parent middle name
    have hdirectory : fixtureNamed name = .directory := Option.some.inj hname
    rw [decide_eq_true_eq] at hplace
    obtain ⟨rfl, rfl⟩ := hplace
    cases hdirectory
  · cases hplace

/-! ## Disks that look alike -/

/-- Whether every place of a disk looks the same on another one, by what its name is for. -/
structure LooksAlike (d d' : Disk) : Prop where
  keeps : KeepsDirectories d d'
  alike : ∀ loc name, (fixtureNamed name).Alike (d.node? (loc ++ [name])) (d'.node? (loc ++ [name]))

/-- What is furnished below a data directory changes the look of no place, not even below another
    data directory. -/
theorem looksAlike_of_furnished (h : Furnished storePlan base d d') : LooksAlike d d' := by
  refine ⟨h.keeps, ?_⟩
  intro loc name
  obtain hsame | ⟨rel, fixture, hloc, hplan, halike⟩ := h.node (loc ++ [name])
  · rw [hsame]
    exact .refl (fixtureNamed name) _
  · -- Both data directories go by the last name of the place.
    have hname := namePlan_append_of_eq_some (storePlan_eq_some_iff.1 hplan).2 base
    rw [← hloc, namePlan_append] at hname
    obtain rfl := Option.some.inj hname
    exact halike

/-- What stands at the places below a directory. -/
def standing (base : Location) (d : Disk) : List String → Option Node :=
  fun rel => d.node? (base ++ rel)

variable {look look' : List String → Option Node}

/-- Whether every place below a directory looks the same. -/
def SameLook (look look' : List String → Option Node) : Prop :=
  ∀ rel name, (fixtureNamed name).Alike (look (rel ++ [name])) (look' (rel ++ [name]))

theorem LooksAlike.sameLook (h : LooksAlike d d') (base : Location) :
    SameLook (standing base d) (standing base d') := by
  intro rel name
  unfold standing
  rw [← List.append_assoc]
  exact h.alike (base ++ rel) name

theorem rooted_below (hr : Rooted root base d) : Rooted root (base ++ []) d := by
  rw [List.append_nil]
  exact hr

end ReplicaStore.CommandLine
