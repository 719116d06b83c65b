import ReplicaStore.Proofs.RecordFile.AnyBytes

/-! # Appending behind stray bytes

    While a record file is open, bytes may come to its end that no append has put there: the
    remains of an append that broke off, or whatever another program writes. The handle knows how
    many bytes its own frames take, and sets the file to that length before it writes. So after
    every append that succeeds nothing but frames is left, one for each record that was there and
    one for each payload that was appended.

    * `Session.Sound`: the file starts with those frames; what follows them does not matter.
    * `Sound.step`, `Sound.run`: every event, and so every run of them, keeps to it.
    * `append_behind_strays`: what an append makes of the file, and what opening it again finds. -/

namespace ReplicaStore.RecordFile

open ReplicaStore.Frame

/-! ## Events -/

/-- What can happen to a record file while it is open. -/
inductive Event where
  /-- A payload is appended through the handle. -/
  | append (payload : Bytes)
  /-- An append breaks off: the file is set to the length that the handle knows, some bytes of the
      frame come to its end, and they are not taken back. -/
  | breakOff (payload : Bytes) (kept : Nat)
  /-- Bytes come to the end of the file from elsewhere. -/
  | stray (bytes : Bytes)

/-- An open record file and its disk, with the payloads that were appended so far. -/
structure Session where
  file : RecordFile
  disk : Disk
  appended : List Bytes

namespace Session

def bytes (s : Session) : Bytes :=
  s.disk.bytesAt s.file.location

/-- The session with other bytes in the file. -/
def withBytes (s : Session) (bs : Bytes) : Session :=
  { s with disk := s.disk.setData s.file.location bs }

def step (s : Session) : Event → Session
  | .append payload =>
    match (s.file.append payload).perform s.disk with
    | (.ok file, disk) => ⟨file, disk, s.appended ++ [payload]⟩
    | (.error _, disk) => { s with disk }
  | .breakOff payload kept =>
    s.withBytes (resize s.file.length s.bytes ++ (encode payload).take kept)
  | .stray bs => s.withBytes (s.bytes ++ bs)

def run (s : Session) (events : List Event) : Session :=
  events.foldl step s

/-! ## Frames first -/

/-- Whether the file of a session starts with the frames of the records that it was opened with and
    of the payloads that were appended, and the handle knows how far these reach. -/
structure Sound (path : String) (rs : List Bytes) (s : Session) : Prop where
  /-- The path leads to the file. -/
  located : s.disk.locateFile path = .ok s.file.location
  path_eq : s.file.path = path
  /-- Each payload has a frame. -/
  fits : ∀ p ∈ rs ++ s.appended, p.length < payloadLimit
  length : s.file.length = (encodeAll (rs ++ s.appended)).length
  /-- Behind the frames may stand anything. -/
  node : ∃ strays, s.disk.node? s.file.location =
    some (.file s.file.identity (encodeAll (rs ++ s.appended) ++ strays))

variable {path : String} {rs : List Bytes} {s : Session}

/-- Changing what stands behind the frames leaves them sound. -/
theorem Sound.withBytes (hs : Sound path rs s) (strays : Bytes) :
    Sound path rs (s.withBytes (encodeAll (rs ++ s.appended) ++ strays)) := by
  obtain ⟨old, hnode⟩ := hs.node
  have hnode' := Disk.node?_setData_of_file hnode (encodeAll (rs ++ s.appended) ++ strays)
  have hsame := Disk.sameBut_setData s.disk s.file.location
    (encodeAll (rs ++ s.appended) ++ strays)
  exact ⟨Disk.locateFile_of_sameBut hs.located hsame hnode', hs.path_eq, hs.fits, hs.length,
    strays, hnode'⟩

/-- Whatever stands behind the frames, an append that a frame can hold puts the next frame right
    behind them and cuts the rest off; other payloads are refused. -/
theorem Sound.perform_append (hs : Sound path rs s) (payload : Bytes) :
    (s.file.append payload).perform s.disk =
      if payload.length < payloadLimit then
        (.ok { s.file with length := s.file.length + (encode payload).length },
          s.disk.setData s.file.location (encodeAll (rs ++ s.appended ++ [payload])))
      else (.error .payloadTooLarge, s.disk) := by
  by_cases hsize : payload.length < payloadLimit
  · obtain ⟨strays, hnode⟩ := hs.node
    have hextend : extend s.file.length (encodeAll (rs ++ s.appended) ++ strays) payload =
        encodeAll (rs ++ s.appended ++ [payload]) := by
      rw [extend, hs.length, resize_append, encodeAll_append _ [payload], encodeAll_cons,
        encodeAll_nil, List.append_nil]
    rw [if_pos hsize]
    simp only [Action.perform, RecordFile.append, hnode, if_neg (Nat.not_le.2 hsize), if_pos,
      hextend]
  · rw [if_neg hsize]
    exact perform_append_of_large hsize

/-- After an append that succeeds, the file holds the frames and nothing else, and writing these
    once more changes nothing. -/
theorem Sound.append (hs : Sound path rs s) {payload : Bytes} {f : RecordFile} {d : Disk}
    (happend : (s.file.append payload).perform s.disk = (.ok f, d)) :
    let frames := encodeAll (rs ++ s.appended ++ [payload])
    Sound path rs ⟨f, d, s.appended ++ [payload]⟩ ∧ f.InPlace d frames ∧
      d.setData f.location frames = d := by
  intro frames
  rw [hs.perform_append payload] at happend
  split at happend
  case isFalse => cases happend
  case isTrue hsize =>
    obtain ⟨hf, rfl⟩ := Prod.mk.inj happend
    obtain rfl := Except.ok.inj hf
    obtain ⟨strays, hnode⟩ := hs.node
    have hnode' := Disk.node?_setData_of_file hnode frames
    have hlocated := Disk.locateFile_of_sameBut hs.located
      (Disk.sameBut_setData s.disk s.file.location frames) hnode'
    have hlength : s.file.length + (encode payload).length = frames.length := by
      show _ = (encodeAll (rs ++ s.appended ++ [payload])).length
      rw [encodeAll_append _ [payload], List.length_append, ← hs.length, encodeAll_cons,
        encodeAll_nil, List.append_nil]
    have hfits : ∀ p ∈ rs ++ s.appended ++ [payload], p.length < payloadLimit :=
      List.forall_mem_append.2 ⟨hs.fits, List.forall_mem_singleton.2 hsize⟩
    have hlist : rs ++ (s.appended ++ [payload]) = rs ++ s.appended ++ [payload] :=
      (List.append_assoc ..).symm
    refine ⟨⟨hlocated, hs.path_eq, ?_, ?_, [], ?_⟩, ⟨hnode', hlength⟩,
      Disk.setData_setData hnode frames⟩
    · rw [hlist]
      exact hfits
    · rw [hlist]
      exact hlength
    · rw [hlist, List.append_nil]
      exact hnode'

/-- Every event leaves the frames in front. -/
theorem Sound.step (hs : Sound path rs s) (event : Event) : Sound path rs (s.step event) := by
  obtain ⟨strays, hnode⟩ := hs.node
  have hbytes : s.bytes = encodeAll (rs ++ s.appended) ++ strays := Disk.bytesAt_of_file hnode
  cases event with
  | append payload =>
    by_cases hsize : payload.length < payloadLimit
    · have happend := hs.perform_append payload
      rw [if_pos hsize] at happend
      simp only [Session.step, happend]
      exact (hs.append happend).1
    · have hrefused := hs.perform_append payload
      rw [if_neg hsize] at hrefused
      simp only [Session.step, hrefused]
      exact hs
  | breakOff payload kept =>
    -- The strays of before are cut off, and the beginning of the frame stands in their place.
    simp only [Session.step, hbytes, hs.length, resize_append]
    exact hs.withBytes _
  | stray bs =>
    simp only [Session.step, hbytes, List.append_assoc]
    exact hs.withBytes _

theorem Sound.run (hs : Sound path rs s) (events : List Event) : Sound path rs (s.run events) := by
  induction events generalizing s with
  | nil => exact hs
  | cons event events ih => exact ih (hs.step event)

end Session

/-! ## Opening before and after -/

/-- What an opened file is: it is where its path leads, and holds the frames of its payloads and
    nothing else. -/
theorem opened_of_perform {d d' : Disk} {path : String} {f : RecordFile} {rs : List Bytes}
    (hopen : (openAt path).perform d = (.ok (f, rs), d')) :
    d'.locateFile path = .ok f.location ∧ f.path = path ∧
      (∀ p ∈ rs, p.length < payloadLimit) ∧ f.InPlace d' (encodeAll rs) := by
  cases hloc : d.locateFile path with
  | error e =>
    rw [perform_openAt_of_error hloc] at hopen
    cases hopen
  | ok loc =>
    rcases recover_eq (d.bytesAt loc) with ⟨damage, offset, hdamaged⟩ | hrecover
    · -- Damaged bytes are not opened.
      rw [← bytesAt_ensureFile] at hdamaged
      simp only [Action.perform, openAt, hloc, hdamaged] at hopen
      cases hopen
    · obtain ⟨f', d₁, hperform, hpath, hlocation, hplace, hsame⟩ :=
        perform_openAt_of_recover hloc hrecover
      rw [hperform] at hopen
      obtain ⟨hresult, rfl⟩ := Prod.mk.inj hopen
      obtain ⟨rfl, rfl⟩ := Prod.mk.inj (Except.ok.inj hresult)
      have hnode := hplace.node
      rw [hlocation] at hnode ⊢
      exact ⟨Disk.locateFile_of_sameBut hloc hsame hnode, hpath, fit_scan _, hplace⟩

/-- The frames of an opened file come first. -/
theorem sound_of_opened {d d' : Disk} {path : String} {f : RecordFile} {rs : List Bytes}
    (hopen : (openAt path).perform d = (.ok (f, rs), d')) :
    Session.Sound path rs ⟨f, d', []⟩ := by
  obtain ⟨hlocated, hpath, hfits, hplace⟩ := opened_of_perform hopen
  have hnone : rs ++ [] = rs := List.append_nil rs
  refine ⟨hlocated, hpath, ?_, ?_, [], ?_⟩
  · rw [hnone]
    exact hfits
  · rw [hnone]
    exact hplace.length
  · rw [hnone, List.append_nil]
    exact hplace.node

/-- A record file that was opened, appended to, and given bytes from elsewhere, in any order: an
    append succeeds exactly if a frame can hold its payload. Then the file holds the frames of the
    records that were there and of all payloads that were appended, in order, and nothing else; and
    opening it again finds exactly these, and changes nothing. -/
theorem append_behind_strays {d d₀ : Disk} {path : String} {f : RecordFile} {rs : List Bytes}
    (hopen : (openAt path).perform d = (.ok (f, rs), d₀)) (events : List Event)
    (payload : Bytes) :
    let s := Session.run ⟨f, d₀, []⟩ events
    let payloads := rs ++ s.appended ++ [payload]
    ((∃ f' d', (s.file.append payload).perform s.disk = (.ok f', d')) ↔
        payload.length < payloadLimit) ∧
      ∀ f' d', (s.file.append payload).perform s.disk = (.ok f', d') →
        d'.read path = .ok (encodeAll payloads) ∧
        (openAt path).perform d' = (.ok (f', payloads), d') := by
  intro s payloads
  have hs : s.Sound path rs := (sound_of_opened hopen).run events
  refine ⟨⟨?_, ?_⟩, ?_⟩
  · rintro ⟨f', d', happend⟩
    rw [hs.perform_append payload] at happend
    split at happend
    · assumption
    · cases happend
  · intro hsize
    exact ⟨_, _, (hs.perform_append payload).trans (if_pos hsize)⟩
  · intro f' d' happend
    obtain ⟨hs', hplace, hagain⟩ := hs.append happend
    have hfits : ∀ p ∈ payloads, p.length < payloadLimit := by
      intro p hp
      exact hs'.fits p (by rwa [← List.append_assoc])
    -- The handle that opening gives is the one that the append has left.
    have hhandle : (⟨path, f'.location, f'.identity, (encodeAll payloads).length⟩ : RecordFile) =
        f' := by
      rw [← hs'.path_eq, ← hplace.length]
    have hkept : d'.setData f'.location (encodeAll payloads) = d' := hagain
    refine ⟨Disk.read_of_locateFile hs'.located hplace.node, ?_⟩
    rw [perform_openAt_of_file hs'.located hplace.node, recover_encodeAll hfits]
    simp only [hhandle, hkept]

/-- A file of one record that gets a whole frame and zeros from elsewhere, and on which, after an
    append, another one breaks off in the length of its frame: what the next append leaves are the
    three records. -/
theorem append_behind_frame_and_zeros :
    let f : RecordFile := ⟨"/records", ["records"], 0, 13⟩
    let opened := (openAt "/records").perform (soleFile (encodeAll [[1]]))
    let s := Session.run ⟨f, opened.2, []⟩
      [.stray (encode [9] ++ [0, 0]), .append [2], .breakOff [3] 5]
    opened.1 = .ok (f, [[1]]) ∧ s.bytes = encodeAll [[1], [2]] ++ (magic ++ [1]) ∧
      ∃ f' d', (s.file.append [4]).perform s.disk = (.ok f', d') ∧
        d'.read "/records" = .ok (encodeAll [[1], [2], [4]]) ∧
        (openAt "/records").perform d' = (.ok (f', [[1], [2], [4]]), d') := by
  intro f opened s
  have hrecover : recover (encodeAll [[1]]) = .ok ([[1]], encodeAll [[1]]) :=
    recover_encodeAll (by decide)
  have hopen : opened = (.ok (f, [[1]]), opened.2) := by
    show (openAt "/records").perform (soleFile _) =
      (_, ((openAt "/records").perform (soleFile _)).2)
    rw [perform_openAt_of_file (locateFile_soleFile _) (node?_soleFile _), hrecover]
    rfl
  obtain ⟨hiff, hafter⟩ := append_behind_strays hopen
    [.stray (encode [9] ++ [0, 0]), .append [2], .breakOff [3] 5] [4]
  obtain ⟨f', d', happend⟩ := hiff.2 (by decide)
  have hbytes : s.bytes = encodeAll [[1], [2]] ++ (magic ++ [1]) := by decide +kernel
  have hpayloads : [[1]] ++ s.appended ++ [[4]] = [[1], [2], [4]] := by decide +kernel
  refine ⟨congrArg Prod.fst hopen, hbytes, f', d', happend, ?_⟩
  rw [← hpayloads]
  exact hafter f' d' happend

end ReplicaStore.RecordFile
