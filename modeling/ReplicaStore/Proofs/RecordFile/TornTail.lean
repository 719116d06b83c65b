import ReplicaStore.RecordFile.Basic
import ReplicaStore.RecordFile.Frame.Lemmas

/-! # Torn tails

    What is read behind a header, and from it what a file of frames recovers to when the
    beginning of one more frame follows: the payloads of the whole frames, and their bytes.

    * `read_header_append`: the outcome of reading behind a header of any length.
    * `read_take_encode`: a proper beginning of a frame is torn.
    * `recover_append_take`: frames with the beginning of another one behind them recover to
      the frames that are whole. -/

namespace ReplicaStore.Frame

/-! ## Reading behind a header -/

/-- The header of a frame whose payload has `size` bytes. -/
def header (size : Nat) : Bytes :=
  magic ++ Bytes.ofNatLE 4 size

@[simp] theorem length_header (size : Nat) : (header size).length = headerSize := by
  simp [header, headerSize]

@[simp] theorem length_checksumBytes (payload : Bytes) : (checksumBytes payload).length = 4 := by
  simp [checksumBytes]

theorem encode_eq_header_append (payload : Bytes) :
    encode payload = header payload.length ++ (payload ++ checksumBytes payload) := by
  rw [encode_eq, header, List.append_assoc]

/-- Four bytes are a stored checksum exactly if their number is the checksum. -/
theorem toNat_eq_toNatLE_iff {bs : Bytes} (payload : Bytes) (h : bs.length = 4) :
    (Checksum.ofBytes (body payload)).toNat = Bytes.toNatLE bs ↔ bs = checksumBytes payload := by
  constructor
  · intro hnat
    have hwrite := Bytes.ofNatLE_toNatLE bs
    rw [h, ← hnat] at hwrite
    exact hwrite.symm
  · intro hbs
    rw [hbs, checksumBytes, Bytes.toNatLE_ofNatLE (Checksum.ofBytes (body payload)).isLt]

/-- What is read behind a header: the length is believed, so what it points at decides. A length
    that leaves nothing behind the checksum is taken for a torn tail. -/
theorem read_header_append {size : Nat} (hsize : size < payloadLimit) (rest : Bytes) :
    read (header size ++ rest) =
      if rest.length < size + 4 then .torn
      else if (rest.drop size).take 4 = checksumBytes (rest.take size) then
        .frame (rest.take size)
      else if rest.length = size + 4 then .torn
      else .damaged .badChecksum := by
  have hmagic : (header size ++ rest).take 4 = magic := by
    rw [header, List.append_assoc]
    exact List.take_left' length_magic
  have hlength : Bytes.toNatLE (((header size ++ rest).drop 4).take 4) = size := by
    rw [header, List.append_assoc, List.drop_left' length_magic,
      List.take_left' (Bytes.length_ofNatLE 4 _)]
    exact Bytes.toNatLE_ofNatLE hsize
  have hrest : (header size ++ rest).drop headerSize = rest :=
    List.drop_left' (length_header size)
  have hlong : ¬ (header size ++ rest).length < headerSize := by
    simp
  simp only [read, hmagic, hlength, hrest]
  rw [if_neg hlong, if_neg (by simp)]
  -- Before the checksum can be read the file may end; then the frame is torn.
  by_cases hshort : rest.length < size + 4
  · rw [if_pos hshort, if_pos hshort, ite_self]
  · have htake : (rest.take size).length = size := by
      rw [List.length_take]
      omega
    have hstored : ((rest.drop size).take 4).length = 4 := by
      simp only [List.length_take, List.length_drop]
      omega
    -- A checksum covers the header as well, so the payload it is the checksum of is the one that
    -- the length selects.
    have hbody : (header size ++ rest).take (headerSize + size) = body (rest.take size) := by
      rw [← length_header size, List.take_length_add_append, body, htake, header]
    rw [if_neg (by omega), if_neg hshort, if_neg hshort, hbody]
    by_cases hsum : (rest.drop size).take 4 = checksumBytes (rest.take size)
    · have hnat := (toNat_eq_toNatLE_iff (rest.take size) hstored).2 hsum
      rw [if_neg (by simpa using hnat), if_pos hsum]
    · have hnat := mt (toNat_eq_toNatLE_iff (rest.take size) hstored).1 hsum
      rw [if_pos hnat, if_neg hsum]

/-! ## Beginnings of a frame -/

/-- A proper beginning of a frame is torn, wherever it ends. -/
theorem read_take_encode {payload : Bytes} (h : payload.length < payloadLimit) {kept : Nat}
    (hkept : kept < (encode payload).length) : read ((encode payload).take kept) = .torn := by
  by_cases hheader : kept < headerSize
  · -- The cut lies inside the header.
    have hshort : ((encode payload).take kept).length < headerSize := by
      rw [List.length_take]
      omega
    rw [read, if_pos hshort]
  · -- The cut lies behind the header, so the length is there and promises too much.
    have hsplit : (encode payload).take kept =
        header payload.length ++ (payload ++ checksumBytes payload).take (kept - headerSize) := by
      rw [encode_eq_header_append, List.take_append, length_header,
        List.take_of_length_le (by rw [length_header]; omega)]
    have hshort : ((payload ++ checksumBytes payload).take (kept - headerSize)).length <
        payload.length + 4 := by
      rw [length_encode, overhead] at hkept
      rw [List.length_take]
      omega
    rw [hsplit, read_header_append h, if_pos hshort]

/-- Torn bytes hold no payload, and nothing of them is intact. -/
theorem scan_of_read_torn {bs : Bytes} (h : read bs = .torn) :
    (scan bs).payloads = [] ∧ (scan bs).intact = 0 ∧
      ∀ damage, (scan bs).ending ≠ .damaged damage := by
  cases bs with
  | nil => simp [scan]
  | cons b bs =>
    rw [scan, h]
    simp

end ReplicaStore.Frame

namespace ReplicaStore.RecordFile

open ReplicaStore.Frame

/-! ## Recovery -/

/-- Frames with torn bytes behind them recover to the frames. -/
theorem recover_append_of_torn {payloads : List Bytes} (h : ∀ p ∈ payloads, p.length < payloadLimit)
    {tail : Bytes} (htail : Frame.read tail = .torn) :
    recover (encodeAll payloads ++ tail) = .ok (payloads, encodeAll payloads) := by
  obtain ⟨hnone, hintact, hending⟩ := scan_of_read_torn htail
  have hscan := scan_encodeAll_append h tail
  rw [hnone, hintact, List.append_nil, Nat.add_zero] at hscan
  rw [recover, hscan]
  split
  · rename_i damage hdamage
    exact absurd hdamage (hending damage)
  · rw [List.take_left]

/-- Frames recover to themselves. -/
theorem recover_encodeAll {payloads : List Bytes} (h : ∀ p ∈ payloads, p.length < payloadLimit) :
    recover (encodeAll payloads) = .ok (payloads, encodeAll payloads) := by
  have htail : Frame.read [] = .torn := by simp [Frame.read, headerSize]
  simpa using recover_append_of_torn h htail

@[simp] theorem encodeAll_append (payloads more : List Bytes) :
    encodeAll (payloads ++ more) = encodeAll payloads ++ encodeAll more := by
  simp [encodeAll]

/-- Frames with the beginning of one more frame behind them recover to the frames that are whole:
    a proper beginning leaves no trace, and a whole frame counts. -/
theorem recover_append_take {payloads : List Bytes} {payload : Bytes}
    (h : ∀ p ∈ payloads ++ [payload], p.length < payloadLimit) (kept : Nat) :
    let whole := if kept < (encode payload).length then payloads else payloads ++ [payload]
    recover (encodeAll payloads ++ (encode payload).take kept) = .ok (whole, encodeAll whole) := by
  intro whole
  -- What is left of the frame is torn bytes, or the frame itself.
  by_cases hkept : kept < (encode payload).length
  · have htorn := read_take_encode (h payload (by simp)) hkept
    have hps : ∀ p ∈ payloads, p.length < payloadLimit := fun p hp => h p (by simp [hp])
    simp only [whole, if_pos hkept]
    exact recover_append_of_torn hps htorn
  · have hall : encodeAll payloads ++ (encode payload).take kept =
        encodeAll (payloads ++ [payload]) := by
      rw [List.take_of_length_le (by omega)]
      simp
    simp only [whole, if_neg hkept]
    rw [hall]
    exact recover_encodeAll h

end ReplicaStore.RecordFile
