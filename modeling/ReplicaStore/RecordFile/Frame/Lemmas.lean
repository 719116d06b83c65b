import ReplicaStore.RecordFile.Frame

/-! # Laws of frames

    Main statements: a frame reads back whatever follows it (`read_encode_append`), a file of frames
    scans to its payloads and then as what follows them (`scan_encodeAll_append`), and the bytes
    that a scan finds intact are exactly the frames of its payloads (`take_intact_scan`). -/

namespace ReplicaStore.Frame

/-! ## One frame -/

@[simp] theorem length_body (payload : Bytes) :
    (body payload).length = headerSize + payload.length := by
  simp [body, headerSize]
  omega

/-- The stored checksum of a payload's frame. -/
def checksumBytes (payload : Bytes) : Bytes :=
  Bytes.ofNatLE 4 (Checksum.ofBytes (body payload)).toNat

theorem encode_eq (payload : Bytes) :
    encode payload =
      magic ++ (Bytes.ofNatLE 4 payload.length ++ (payload ++ checksumBytes payload)) := by
  simp [encode, body, checksumBytes]

/-- A frame reads back whatever follows it. -/
theorem read_encode_append {payload : Bytes} (h : payload.length < payloadLimit) (rest : Bytes) :
    read (encode payload ++ rest) = .frame payload := by
  have hmagic : (encode payload ++ rest).take 4 = magic := by
    rw [encode_eq, List.append_assoc]
    exact List.take_left' length_magic
  have hsize : Bytes.toNatLE (((encode payload ++ rest).drop 4).take 4) = payload.length := by
    rw [encode_eq, List.append_assoc, List.drop_left' length_magic, List.append_assoc,
      List.take_left' (Bytes.length_ofNatLE 4 _)]
    exact Bytes.toNatLE_ofNatLE h
  have hrest : (encode payload ++ rest).drop headerSize =
      payload ++ (checksumBytes payload ++ rest) := by
    have hlen : (magic ++ Bytes.ofNatLE 4 payload.length).length = headerSize := by
      simp [headerSize]
    rw [encode_eq, ← List.append_assoc magic, List.append_assoc, List.drop_left' hlen,
      List.append_assoc]
  have hbody : (encode payload ++ rest).take (headerSize + payload.length) = body payload := by
    rw [encode, List.append_assoc]
    exact List.take_left' (length_body payload)
  have hchecksum : ((payload ++ (checksumBytes payload ++ rest)).drop payload.length).take 4 =
      checksumBytes payload := by
    rw [List.drop_left, checksumBytes, List.take_left' (Bytes.length_ofNatLE 4 _)]
  have hstored : Bytes.toNatLE (checksumBytes payload) = (Checksum.ofBytes (body payload)).toNat :=
    Bytes.toNatLE_ofNatLE (Checksum.ofBytes (body payload)).isLt
  have hlong : ¬ (encode payload ++ rest).length < headerSize := by
    simp [overhead, headerSize]
    omega
  have henough : ¬ (payload ++ (checksumBytes payload ++ rest)).length < payload.length + 4 := by
    simp [checksumBytes]
  -- With the fields of the frame at hand, the reader passes each of its checks.
  simp only [read, hmagic, hsize, hrest, hbody, hchecksum, hstored]
  rw [if_neg hlong, if_neg (by simp), if_neg (by omega), if_neg henough, if_neg (by simp),
    List.take_left]

/-- What reads as a frame starts with it. -/
theorem eq_encode_append_of_read {bs payload : Bytes} (h : read bs = .frame payload) :
    payload.length < payloadLimit ∧ bs = encode payload ++ bs.drop (payload.length + overhead) := by
  rw [read] at h
  split at h
  · simp at h
  rename_i hlong
  split at h
  · split at h <;> simp at h
  rename_i hmagic
  simp only at h
  split at h
  · simp at h
  rename_i hsize
  split at h
  · simp at h
  rename_i hstored
  split at h
  · split at h <;> simp at h
  rename_i hchecksum
  -- All checks were passed. Each of the fields is now shown to be what a frame of the payload has
  -- in its place.
  have hpayload := Head.frame.inj h
  generalize hn : Bytes.toNatLE ((bs.drop 4).take 4) = size at *
  have hlen : payload.length = size := by
    rw [← hpayload, List.length_take]
    omega
  have hlength : Bytes.ofNatLE 4 size = (bs.drop 4).take 4 := by
    have h4 : ((bs.drop 4).take 4).length = 4 := by
      simp only [List.length_take, List.length_drop]
      simp only [headerSize] at hlong
      omega
    rw [← hn]
    simpa [h4] using Bytes.ofNatLE_toNatLE ((bs.drop 4).take 4)
  have hbody : body payload = bs.take (headerSize + size) := by
    have hheader : bs.take 8 = bs.take 4 ++ (bs.drop 4).take 4 := List.take_add (i := 4) (j := 4)
    rw [body, hlen, hlength, ← Decidable.not_not.1 hmagic, ← hpayload, List.take_add, headerSize,
      hheader]
  have hsum : checksumBytes payload = ((bs.drop headerSize).drop size).take 4 := by
    have h4 : (((bs.drop headerSize).drop size).take 4).length = 4 := by
      simp only [List.length_take, List.length_drop] at hstored ⊢
      omega
    have hwrite := Bytes.ofNatLE_toNatLE (((bs.drop headerSize).drop size).take 4)
    rw [h4, ← Decidable.not_not.1 hchecksum] at hwrite
    rw [checksumBytes, hbody, hwrite]
  -- The frame is the body with its checksum, and both were found side by side.
  have hencode : encode payload = bs.take (payload.length + overhead) := by
    have hsplit : encode payload = body payload ++ checksumBytes payload := rfl
    rw [hsplit, hbody, hsum, hlen, overhead, List.drop_drop, ← List.take_add]
    congr 1
    omega
  -- The length came out of four bytes, so it is below the limit.
  refine ⟨?_, ?_⟩
  · rw [hlen, ← hn]
    have hlt := Bytes.toNatLE_lt ((bs.drop 4).take 4)
    have h4 : 256 ^ ((bs.drop 4).take 4).length ≤ 256 ^ 4 :=
      Nat.pow_le_pow_right (by decide) (List.length_take_le 4 _)
    exact Nat.lt_of_lt_of_le hlt h4
  · rw [hencode, List.take_append_drop]

/-! ## Many frames -/

theorem scan_of_read {bs payload : Bytes} (h : read bs = .frame payload) :
    scan bs =
      let later := scan (bs.drop (payload.length + overhead))
      ⟨payload :: later.payloads, payload.length + overhead + later.intact, later.ending⟩ := by
  cases bs with
  | nil => simp [read, headerSize] at h
  | cons b bs => rw [scan, h]

/-- A file that starts with a frame scans to its payload and then as the rest. -/
theorem scan_encode_append {payload : Bytes} (h : payload.length < payloadLimit) (rest : Bytes) :
    scan (encode payload ++ rest) =
      ⟨payload :: (scan rest).payloads, payload.length + overhead + (scan rest).intact,
        (scan rest).ending⟩ := by
  rw [scan_of_read (read_encode_append h rest), List.drop_left' (length_encode payload)]

/-- A file of frames scans to its payloads and then as what follows them. -/
theorem scan_encodeAll_append {payloads : List Bytes}
    (h : ∀ p ∈ payloads, p.length < payloadLimit) (rest : Bytes) :
    scan (encodeAll payloads ++ rest) =
      ⟨payloads ++ (scan rest).payloads, (encodeAll payloads).length + (scan rest).intact,
        (scan rest).ending⟩ := by
  -- By induction on the frames; the scan of what follows stays as it is.
  induction payloads with
  | nil => simp
  | cons p ps ih =>
    have hp : p.length < payloadLimit := h p (by simp)
    have hps : ∀ q ∈ ps, q.length < payloadLimit := fun q hq => h q (by simp [hq])
    rw [encodeAll_cons, List.append_assoc, scan_encode_append hp, ih hps]
    simp [Nat.add_assoc]

/-- The bytes that a scan finds intact are exactly the frames of its payloads. -/
theorem take_intact_scan (bs : Bytes) :
    bs.take (scan bs).intact = encodeAll (scan bs).payloads := by
  -- By induction on the number of bytes, as the scan goes on behind each frame.
  induction hn : bs.length using Nat.strongRecOn generalizing bs with
  | _ n ih =>
    cases bs with
    | nil => simp [scan]
    | cons b bs =>
      cases hread : read (b :: bs) with
      | torn => simp [scan, hread]
      | damaged damage => simp [scan, hread]
      | frame payload =>
        rw [scan_of_read hread]
        have hsplit := (eq_encode_append_of_read hread).2
        have hlater := ih ((b :: bs).drop (payload.length + overhead)).length
          (by simp only [← hn, List.length_drop, List.length_cons, overhead]; omega) _ rfl
        have hhead : (b :: bs).take (payload.length + overhead) = encode payload := by
          conv => lhs; rw [hsplit]
          exact List.take_left' (length_encode payload)
        rw [encodeAll_cons, List.take_add, hhead, hlater]

end ReplicaStore.Frame
