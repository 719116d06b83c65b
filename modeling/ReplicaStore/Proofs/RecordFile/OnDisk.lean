import ReplicaStore.Proofs.Disk.Passage
import ReplicaStore.RecordFile.Basic

/-! # Record files on a disk

    What opening a record file and appending to it do to a disk: the one file changes, as the
    laws of its bytes say, and everything else stays. -/

namespace ReplicaStore.RecordFile

open Disk

/-! ## Opening -/

/-- An open record file in place: the disk shows its identity and, of its bytes, the given ones,
    and it knows their number. -/
structure InPlace (f : RecordFile) (d : Disk) (data : Bytes) : Prop where
  node : d.node? f.location = some (.file f.identity data)
  length : f.length = data.length

theorem InPlace.of_node? {f : RecordFile} {d d' : Disk} {data : Bytes} (h : f.InPlace d data)
    (hnode : d'.node? f.location = d.node? f.location) : f.InPlace d' data :=
  ⟨hnode.trans h.node, h.length⟩

theorem bytesAt_ensureFile (d : Disk) (loc : Location) :
    (d.ensureFile loc).1.2 = d.bytesAt loc := by
  unfold ensureFile bytesAt
  cases d.node? loc with
  | none => rfl
  | some n => cases n <;> rfl

theorem node?_ensureFile (d : Disk) (loc : Location) :
    (d.ensureFile loc).2.node? loc =
      some (.file (d.ensureFile loc).1.1 (d.ensureFile loc).1.2) := by
  unfold ensureFile
  split
  · assumption
  · rename_i hnode
    unfold setData
    split
    · -- No file was there before, so it is not its bytes that are replaced.
      rename_i identity old hfile
      exact absurd hfile (hnode identity old)
    · exact (node?_put d loc _ loc).trans (if_pos rfl)

theorem sameBut_ensureFile (d : Disk) (loc : Location) : SameBut loc d (d.ensureFile loc).2 := by
  unfold ensureFile
  split
  · exact .refl loc d
  · exact sameBut_setData d loc []

/-- A file that exists is opened as its bytes recover; where they are damaged, the disk is left as
    it was. -/
theorem perform_openAt_of_file {d : Disk} {path : String} {loc : Location} {identity : Nat}
    {data : Bytes} (hloc : d.locateFile path = .ok loc)
    (hfile : d.node? loc = some (.file identity data)) :
    (openAt path).perform d =
      match recover data with
      | .error (damage, offset) => (.error (.damagedFile path offset damage), d)
      | .ok (payloads, kept) =>
        (.ok (⟨path, loc, identity, kept.length⟩, payloads), d.setData loc kept) := by
  have hensure : d.ensureFile loc = ((identity, data), d) := by
    simp [ensureFile, hfile]
  cases hrecover : recover data with
  | error fault =>
    obtain ⟨damage, offset⟩ := fault
    simp only [Action.perform, openAt, hloc, hensure, hrecover]
  | ok recovered =>
    obtain ⟨payloads, kept⟩ := recovered
    simp only [Action.perform, openAt, hloc, hensure, hrecover]

/-- Bytes that recover are opened: the handle is in place over the bytes that stay. -/
theorem perform_openAt_of_recover {d : Disk} {path : String} {loc : Location}
    {payloads : List Bytes} {kept : Bytes} (hloc : d.locateFile path = .ok loc)
    (hrecover : recover (d.bytesAt loc) = .ok (payloads, kept)) :
    ∃ f d', (openAt path).perform d = (.ok (f, payloads), d') ∧ f.path = path ∧ f.location = loc ∧
      f.InPlace d' kept ∧ SameBut loc d d' := by
  have hnode := node?_ensureFile d loc
  have hother := sameBut_ensureFile d loc
  have hdata := bytesAt_ensureFile d loc
  generalize hensure : d.ensureFile loc = made at hnode hother hdata
  obtain ⟨⟨identity, data⟩, made⟩ := made
  simp only at hnode hother hdata
  refine ⟨⟨path, loc, identity, kept.length⟩, made.setData loc kept, ?_, rfl, rfl, ⟨?_, rfl⟩, ?_⟩
  · simp only [Action.perform, openAt, hloc, hensure, hdata, hrecover]
  · exact node?_setData_of_file hnode kept
  · exact hother.trans (sameBut_setData made loc kept)

/-- If a path leads to no file that could be opened, the disk is left as it was. -/
theorem perform_openAt_of_error {d : Disk} {path : String} {e : OsError}
    (hloc : d.locateFile path = .error e) :
    (openAt path).perform d = (.error (.cannotOpen path e), d) := by
  simp only [Action.perform, openAt, hloc]

/-! ## Appending -/

theorem resize_length (data : Bytes) : resize data.length data = data := by
  simpa using resize_append data []

/-- An append puts one more frame behind the bytes of a file in place. -/
theorem perform_append {f : RecordFile} {d : Disk} {data payload : Bytes}
    (hplace : f.InPlace d data) (hsize : payload.length < Frame.payloadLimit) :
    ∃ f' d', (f.append payload).perform d = (.ok f', d') ∧ f'.path = f.path ∧
      f'.location = f.location ∧ f'.InPlace d' (data ++ Frame.encode payload) ∧
      SameBut f.location d d' := by
  -- The file is as long as the handle says, so it is neither cut nor filled up before the frame.
  have hlength : extend f.length data payload = data ++ Frame.encode payload := by
    rw [extend, hplace.length, resize_length]
  refine ⟨{ f with length := f.length + (Frame.encode payload).length },
    d.setData f.location (data ++ Frame.encode payload), ?_, rfl, rfl, ⟨?_, ?_⟩, ?_⟩
  · simp only [Action.perform, append, hplace.node, if_neg (Nat.not_le.2 hsize), if_pos, hlength]
  · exact node?_setData_of_file hplace.node _
  · simp only [List.length_append, hplace.length]
  · exact sameBut_setData d f.location _

/-- A payload that no frame can hold is refused, and the disk is left as it was. -/
theorem perform_append_of_large {f : RecordFile} {d : Disk} {payload : Bytes}
    (hsize : ¬ payload.length < Frame.payloadLimit) :
    (f.append payload).perform d = (.error .payloadTooLarge, d) := by
  simp only [Action.perform, append, if_pos (Nat.not_lt.1 hsize)]

end ReplicaStore.RecordFile
