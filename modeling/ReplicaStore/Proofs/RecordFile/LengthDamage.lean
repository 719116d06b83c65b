import ReplicaStore.Proofs.RecordFile.OnDisk
import ReplicaStore.Proofs.RecordFile.TornTail

/-! # Damaged length fields

    A frame's length is believed before anything else is checked, so a record whose length field
    is damaged is read as a record of the wrong length. What the wrong length points at decides
    what opening the file makes of it:

    * behind its end lies more of the file: the checksum does not match, and the damage is
      reported;
    * it reaches the end of the file or points past it: the record and all records behind it are
      taken for a torn tail and cut off;
    * by accident, what it selects has the checksum that it finds: the wrong payload is taken, and
      the bytes behind it are read as further records.

    `openAt_wrongLength` says exactly when the damage is reported and the file left alone. -/

namespace ReplicaStore

/-- The byte string with the bits of a mask turned over in one byte. -/
def Bytes.turnOver (offset : Nat) (mask : UInt8) (bs : Bytes) : Bytes :=
  bs.modify offset fun b => b ^^^ mask

namespace Frame

/-! ## The damaged file -/

/-- The length that a record claims once a byte of its length field is damaged. -/
def wrongLength (payload : Bytes) (i : Nat) (mask : UInt8) : Nat :=
  Bytes.toNatLE ((Bytes.ofNatLE 4 payload.length).turnOver i mask)

/-- What lies behind a record's header: its own payload and checksum, and the later records. -/
def behindHeader (payload : Bytes) (later : List Bytes) : Bytes :=
  payload ++ (checksumBytes payload ++ encodeAll later)

/-- The file of some records in which a byte of one record's length field is damaged. -/
def withDamagedLength (earlier : List Bytes) (payload : Bytes) (later : List Bytes) (i : Nat)
    (mask : UInt8) : Bytes :=
  (encodeAll (earlier ++ payload :: later)).turnOver ((encodeAll earlier).length + 4 + i) mask

/-- Whether the bytes that a length selects have, by accident, the checksum behind them. -/
def MatchesByAccident (size : Nat) (rest : Bytes) : Prop :=
  (rest.drop size).take 4 = checksumBytes (rest.take size)

/-- Whether reading bytes as records ends with damage. -/
def EndsInDamage (bs : Bytes) : Prop :=
  ∃ damage, (scan bs).ending = .damaged damage

theorem turnOver_append_left {as : Bytes} {offset : Nat} (h : offset < as.length) (mask : UInt8)
    (bs : Bytes) : (as ++ bs).turnOver offset mask = as.turnOver offset mask ++ bs := by
  have htake : (as.drop offset) ≠ [] := by
    rw [ne_eq, List.drop_eq_nil_iff]
    omega
  obtain ⟨b, rest, hrest⟩ := List.exists_cons_of_ne_nil htake
  unfold Bytes.turnOver
  rw [List.modify_eq_take_drop, List.modify_eq_take_drop, List.take_append_of_le_length (by omega),
    List.drop_append_of_le_length (by omega), hrest]
  simp

theorem turnOver_append_right (as : Bytes) (offset : Nat) (mask : UInt8) (bs : Bytes) :
    (as ++ bs).turnOver (as.length + offset) mask = as ++ bs.turnOver offset mask := by
  unfold Bytes.turnOver
  exact List.modifyTailIdx_add _ _ as bs

@[simp] theorem length_turnOver (offset : Nat) (mask : UInt8) (bs : Bytes) :
    (bs.turnOver offset mask).length = bs.length := by
  simp [Bytes.turnOver]

theorem wrongLength_lt (payload : Bytes) (i : Nat) (mask : UInt8) :
    wrongLength payload i mask < payloadLimit := by
  have h := Bytes.toNatLE_lt ((Bytes.ofNatLE 4 payload.length).turnOver i mask)
  rw [length_turnOver, Bytes.length_ofNatLE] at h
  exact h

/-- The damaged file: the earlier records, a header of the wrong length, and the rest. -/
theorem withDamagedLength_eq (earlier : List Bytes) (payload : Bytes) (later : List Bytes)
    {i : Nat} (hi : i < 4) (mask : UInt8) :
    withDamagedLength earlier payload later i mask =
      encodeAll earlier ++
        (header (wrongLength payload i mask) ++ behindHeader payload later) := by
  have hfile : encodeAll (earlier ++ payload :: later) =
      encodeAll earlier ++ (magic ++ (Bytes.ofNatLE 4 payload.length ++
        behindHeader payload later)) := by
    rw [RecordFile.encodeAll_append, encodeAll_cons, encode_eq, behindHeader]
    simp only [List.append_assoc]
  -- Writing the number that was read from four bytes gives the same four bytes.
  have hfield : Bytes.ofNatLE 4 (wrongLength payload i mask) =
      (Bytes.ofNatLE 4 payload.length).turnOver i mask := by
    have hwrite := Bytes.ofNatLE_toNatLE ((Bytes.ofNatLE 4 payload.length).turnOver i mask)
    rw [length_turnOver, Bytes.length_ofNatLE] at hwrite
    exact hwrite
  have hmagic : 4 + i = magic.length + i := by rw [length_magic]
  have hwidth : i < (Bytes.ofNatLE 4 payload.length).length := by
    rw [Bytes.length_ofNatLE]
    exact hi
  -- The byte is found behind the earlier records and behind the magic number.
  rw [withDamagedLength, hfile, Nat.add_assoc, turnOver_append_right, hmagic, turnOver_append_right,
    turnOver_append_left hwidth, header, hfield, List.append_assoc]

/-! ## Reading it -/

theorem not_matchesByAccident_of_short {size : Nat} {rest : Bytes} (h : rest.length < size + 4) :
    ¬ MatchesByAccident size rest := by
  intro hmatch
  have hlength := congrArg List.length hmatch
  rw [length_checksumBytes, List.length_take, List.length_drop] at hlength
  omega

/-- What is read from a header of any length to the end of the file: an accident counts as a
    record, a length that stays inside the file as damage, and every other one as a torn tail. -/
theorem scan_header_append {size : Nat} (hsize : size < payloadLimit) (rest : Bytes) :
    (MatchesByAccident size rest →
        scan (header size ++ rest) =
          ⟨rest.take size :: (scan (rest.drop (size + 4))).payloads,
            size + overhead + (scan (rest.drop (size + 4))).intact,
            (scan (rest.drop (size + 4))).ending⟩) ∧
      (¬ MatchesByAccident size rest → size + 4 < rest.length →
        scan (header size ++ rest) = ⟨[], 0, .damaged .badChecksum⟩) ∧
      (¬ MatchesByAccident size rest → rest.length ≤ size + 4 →
        Frame.read (header size ++ rest) = .torn) := by
  have hread := read_header_append hsize rest
  unfold MatchesByAccident
  refine ⟨?_, ?_, ?_⟩
  · intro hmatch
    have hlong : ¬ rest.length < size + 4 := fun h => not_matchesByAccident_of_short h hmatch
    have hpayload : (rest.take size).length = size := by
      rw [List.length_take]
      omega
    have hframe : Frame.read (header size ++ rest) = .frame (rest.take size) := by
      rw [hread, if_neg hlong, if_pos hmatch]
    have hbehind : (header size ++ rest).drop (size + overhead) = rest.drop (size + 4) := by
      have hwidth : size + overhead = (header size).length + (size + 4) := by
        rw [length_header, overhead]
        omega
      rw [hwidth, List.drop_length_add_append]
    rw [scan_of_read hframe, hpayload, hbehind]
  · -- More of the file lies behind the checksum, so the frame cannot be a torn one.
    intro hmatch hinside
    have hdamaged : Frame.read (header size ++ rest) = .damaged .badChecksum := by
      rw [hread, if_neg (by omega), if_neg hmatch, if_neg (by omega)]
    obtain ⟨b, bs, hbs⟩ : ∃ b bs, header size ++ rest = b :: bs :=
      List.exists_cons_of_ne_nil (fun hnil => by simpa [headerSize] using congrArg List.length hnil)
    rw [hbs] at hdamaged ⊢
    rw [scan, hdamaged]
  · -- Nothing lies behind the checksum, if it is there at all.
    intro hmatch hend
    rw [hread]
    by_cases hshort : rest.length < size + 4
    · rw [if_pos hshort]
    · rw [if_neg hshort, if_neg hmatch, if_pos (by omega)]

/-- Reading from a header on ends in damage exactly if the damage is noticed there, or if an
    accident is taken for a record and the bytes behind it end in damage. -/
theorem endsInDamage_header_append_iff {size : Nat} (hsize : size < payloadLimit) (rest : Bytes) :
    EndsInDamage (header size ++ rest) ↔
      (¬ MatchesByAccident size rest ∧ size + 4 < rest.length) ∨
        (MatchesByAccident size rest ∧ EndsInDamage (rest.drop (size + 4))) := by
  obtain ⟨haccident, hinside, hend⟩ := scan_header_append hsize rest
  -- One case for each of the three outcomes.
  by_cases hmatch : MatchesByAccident size rest
  · simp only [EndsInDamage, haccident hmatch, hmatch, not_true_eq_false, false_and, true_and,
      false_or]
  · by_cases hlong : size + 4 < rest.length
    · simp [EndsInDamage, hinside hmatch hlong, hmatch, hlong]
    · have htorn := scan_of_read_torn (hend hmatch (by omega))
      simp only [hmatch, hlong, and_false, false_and, or_self, iff_false]
      rintro ⟨damage, hdamage⟩
      exact htorn.2.2 damage hdamage

end Frame

/-! ## Opening it -/

namespace RecordFile

open ReplicaStore.Frame

theorem recover_eq_error_iff {bs : Bytes} :
    (∃ damage offset, recover bs = .error (damage, offset)) ↔ EndsInDamage bs := by
  unfold recover EndsInDamage
  constructor
  · rintro ⟨damage, offset, h⟩
    simp only at h
    split at h
    · exact ⟨_, ‹_›⟩
    · cases h
  · rintro ⟨damage, h⟩
    refine ⟨damage, (scan bs).intact, ?_⟩
    simp only [h]

theorem endsInDamage_encodeAll_append {payloads : List Bytes}
    (h : ∀ p ∈ payloads, p.length < payloadLimit) (rest : Bytes) :
    EndsInDamage (encodeAll payloads ++ rest) ↔ EndsInDamage rest := by
  unfold EndsInDamage
  rw [scan_encodeAll_append h]

/-- Opening a file that exists reports data loss, and leaves the disk as it is, exactly if reading
    its bytes ends in damage. -/
theorem openAt_fails_iff {d : Disk} {path : String} {loc : Location} {identity : Nat}
    {data : Bytes} (hloc : d.locateFile path = .ok loc)
    (hfile : d.node? loc = some (.file identity data)) :
    (∃ e, (openAt path).perform d = (.error e, d) ∧ e.kind = .dataLoss) ↔ EndsInDamage data := by
  rw [← recover_eq_error_iff, perform_openAt_of_file hloc hfile]
  constructor
  · rintro ⟨e, he, -⟩
    split at he
    · exact ⟨_, _, ‹_›⟩
    · cases he
  · rintro ⟨damage, offset, h⟩
    exact ⟨.damagedFile path offset damage, by rw [h], rfl⟩

/-- A file in which a byte of one record's length field is damaged: opening it reports data loss
    and leaves the disk as it is exactly if the wrong length ends before the file does, or what it
    selects matches by accident and the bytes behind that are damaged in turn. A wrong length that
    reaches the end of the file takes the record and all later ones for a torn tail: opening
    returns the earlier records alone, and cuts the later ones off. -/
theorem openAt_wrongLength {d : Disk} {path : String} {loc : Location} {identity : Nat}
    (earlier : List Bytes) (payload : Bytes) (later : List Bytes) (i : Nat) (mask : UInt8)
    (hearlier : ∀ p ∈ earlier, p.length < payloadLimit) (hi : i < 4)
    (hloc : d.locateFile path = .ok loc)
    (hfile : d.node? loc =
      some (.file identity (withDamagedLength earlier payload later i mask))) :
    let wrong := wrongLength payload i mask
    let rest := behindHeader payload later
    ((∃ e, (openAt path).perform d = (.error e, d) ∧ e.kind = .dataLoss) ↔
        (¬ MatchesByAccident wrong rest ∧ wrong + 4 < rest.length) ∨
          (MatchesByAccident wrong rest ∧ EndsInDamage (rest.drop (wrong + 4)))) ∧
      (¬ MatchesByAccident wrong rest → rest.length ≤ wrong + 4 →
        (openAt path).perform d =
          (.ok (⟨path, loc, identity, (encodeAll earlier).length⟩, earlier),
            d.setData loc (encodeAll earlier))) := by
  intro wrong rest
  have hdata := withDamagedLength_eq earlier payload later hi mask
  rw [hdata] at hfile
  have hwrong : wrong < payloadLimit := wrongLength_lt payload i mask
  refine ⟨?_, ?_⟩
  · rw [openAt_fails_iff hloc hfile, endsInDamage_encodeAll_append hearlier]
    exact endsInDamage_header_append_iff hwrong rest
  · intro hmatch hreach
    have htorn := (scan_header_append hwrong rest).2.2 hmatch hreach
    rw [perform_openAt_of_file hloc hfile, recover_append_of_torn hearlier htorn]

/-! ## A disk with one file -/

/-- A disk whose root holds one file, under the name `records`. -/
def soleFile (data : Bytes) : Disk :=
  (Disk.empty []).put ["records"] (.file 0 data)

theorem locateFile_soleFile (data : Bytes) :
    (soleFile data).locateFile "/records" = .ok ["records"] := rfl

theorem node?_soleFile (data : Bytes) :
    (soleFile data).node? ["records"] = some (.file 0 data) := by
  rw [soleFile, Disk.node?_put, if_pos rfl]

/-- A length that is damaged to a smaller one is noticed: three bytes become two. -/
theorem openAt_shorterLength :
    (∀ p ∈ ([] : List Bytes), p.length < payloadLimit) ∧ 0 < 4 ∧
      ∃ e, (openAt "/records").perform (soleFile (withDamagedLength [] [1, 2, 3] [[4]] 0 1)) =
        (.error e, soleFile (withDamagedLength [] [1, 2, 3] [[4]] 0 1)) ∧ e.kind = .dataLoss := by
  have hmatch : ¬ MatchesByAccident (wrongLength [1, 2, 3] 0 1) (behindHeader [1, 2, 3] [[4]]) := by
    unfold MatchesByAccident
    decide +kernel
  have hinside : wrongLength [1, 2, 3] 0 1 + 4 < (behindHeader [1, 2, 3] [[4]]).length := by
    decide +kernel
  have hopen := openAt_wrongLength [] [1, 2, 3] [[4]] 0 1 (by simp) (by decide)
    (locateFile_soleFile _) (node?_soleFile _)
  exact ⟨by simp, by decide, hopen.1.2 (.inl ⟨hmatch, hinside⟩)⟩

/-- A length that is damaged to one past the end of the file is not noticed: of two records none is
    returned, and none is left on the disk. -/
theorem openAt_farLength_cuts :
    let d := soleFile (withDamagedLength [] [1] [[2]] 3 1)
    (1 : UInt8) ≠ 0 ∧
      ¬ (∃ e, (openAt "/records").perform d = (.error e, d) ∧ e.kind = .dataLoss) ∧
      ((openAt "/records").perform d).2.bytesAt ["records"] = [] := by
  intro d
  have hshort : (behindHeader [1] [[2]]).length < wrongLength [1] 3 1 + 4 := by
    decide +kernel
  have hmatch := not_matchesByAccident_of_short hshort
  have htorn := (scan_header_append (wrongLength_lt [1] 3 1) (behindHeader [1] [[2]])).2.2 hmatch
    (Nat.le_of_lt hshort)
  have hrecover : recover (withDamagedLength [] [1] [[2]] 3 1) = .ok ([], []) := by
    rw [withDamagedLength_eq [] [1] [[2]] (by decide) 1]
    exact recover_append_of_torn (by simp) htorn
  have hopen : (openAt "/records").perform d =
      (.ok (⟨"/records", ["records"], 0, 0⟩, []), d.setData ["records"] []) := by
    rw [perform_openAt_of_file (locateFile_soleFile _) (node?_soleFile _), hrecover]
    rfl
  refine ⟨by decide, ?_, ?_⟩
  · rintro ⟨e, he, -⟩
    rw [hopen] at he
    cases he
  · rw [hopen]
    exact Disk.bytesAt_of_file (Disk.node?_setData_of_file (node?_soleFile _) [])

end RecordFile

end ReplicaStore
