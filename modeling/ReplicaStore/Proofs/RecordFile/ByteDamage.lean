import ReplicaStore.Proofs.RecordFile.LengthDamage

/-! # Damaged bytes outside the length field

    The length of a record says where its checksum stands and where the next record begins. As long
    as it is sound, one damaged byte anywhere else in the record is noticed:

    * in the magic number, because nothing else may start a record;
    * in the payload, because the register of the checksum loses nothing: two byte strings that
      differ in a single byte have different checksums, whatever their length
      (`ofBytes_append_cons_inj`);
    * in the stored checksum, because the payload still has the old one.

    What is made of it depends on what follows. A wrong checksum at the very end of the file is
    what a crash can leave behind, so there the record is cut off; everywhere else the damage is
    reported. `openAt_damagedByte` puts this together for a file of any records. -/

namespace ReplicaStore

/-! ## Checksums of byte strings that differ in one byte -/

namespace Checksum

theorem shiftByte_injective {r s : Register} (h : shiftByte r = shiftByte s) : r = s := by
  unfold shiftByte at h
  iterate 8 replace h := shift_injective h
  exact h

/-- The register after a byte tells the register before it. -/
theorem feed_injective {r s : Register} {b : UInt8} (h : feed r b = feed s b) : r = s :=
  (BitVec.xor_left_inj _).1 (shiftByte_injective h)

/-- The register after a byte tells the byte. -/
theorem feed_right_injective {r : Register} {a b : UInt8} (h : feed r a = feed r b) : a = b := by
  have hwide : a.toBitVec.setWidth 32 = b.toBitVec.setWidth 32 :=
    (BitVec.xor_right_inj _).1 (shiftByte_injective h)
  have hnat := congrArg BitVec.toNat hwide
  rw [BitVec.toNat_setWidth_of_le (by decide), BitVec.toNat_setWidth_of_le (by decide)] at hnat
  exact UInt8.toBitVec_inj.1 (BitVec.eq_of_toNat_eq hnat)

theorem feedAll_injective {r s : Register} {bs : Bytes} (h : feedAll r bs = feedAll s bs) :
    r = s := by
  induction bs generalizing r s with
  | nil => exact h
  | cons b bs ih => exact feed_injective (ih h)

/-- Byte strings that differ at most in one byte have the same checksum only if they are the same.
    The bytes before it lead to one register; the two bytes lead on to different ones, and the
    bytes behind it never bring them together. -/
theorem ofBytes_append_cons_inj {as bs : Bytes} {a b : UInt8} :
    ofBytes (as ++ a :: bs) = ofBytes (as ++ b :: bs) ↔ a = b := by
  constructor
  · intro h
    have hregister : feedAll (BitVec.allOnes 32) (as ++ a :: bs) =
        feedAll (BitVec.allOnes 32) (as ++ b :: bs) := BitVec.not_inj.1 h
    unfold feedAll at hregister
    rw [List.foldl_append, List.foldl_append, List.foldl_cons, List.foldl_cons] at hregister
    exact feed_right_injective (feedAll_injective hregister)
  · intro h
    rw [h]

end Checksum

/-! ## One byte turned over -/

namespace Bytes

theorem xor_ne_self {b mask : UInt8} (h : mask ≠ 0) : b ^^^ mask ≠ b := by
  intro hsame
  exact h ((UInt8.xor_right_inj _).1 (hsame.trans UInt8.xor_zero.symm))

theorem exists_turnOver_eq {offset : Nat} {bs : Bytes} (h : offset < bs.length) (mask : UInt8) :
    ∃ before b behind, bs = before ++ b :: behind ∧ before.length = offset ∧
      bs.turnOver offset mask = before ++ (b ^^^ mask) :: behind := by
  have hsplit : bs = bs.take offset ++ bs[offset] :: bs.drop (offset + 1) := by simp
  have hbefore : (bs.take offset).length = offset := List.length_take_of_le (Nat.le_of_lt h)
  refine ⟨bs.take offset, bs[offset], bs.drop (offset + 1), hsplit, hbefore, ?_⟩
  unfold turnOver
  rw [List.modify_eq_take_cons_drop h]

theorem turnOver_ne {offset : Nat} {bs : Bytes} (h : offset < bs.length) {mask : UInt8}
    (hmask : mask ≠ 0) : bs.turnOver offset mask ≠ bs := by
  obtain ⟨before, b, behind, hbs, -, hover⟩ := exists_turnOver_eq h mask
  rw [hover, hbs]
  intro hsame
  exact xor_ne_self hmask (List.cons.inj (List.append_cancel_left hsame)).1

theorem ofBytes_turnOver_ne {offset : Nat} {bs : Bytes} (h : offset < bs.length) {mask : UInt8}
    (hmask : mask ≠ 0) : Checksum.ofBytes (bs.turnOver offset mask) ≠ Checksum.ofBytes bs := by
  obtain ⟨before, b, behind, hbs, -, hover⟩ := exists_turnOver_eq h mask
  rw [hover, hbs]
  exact fun hsame => xor_ne_self hmask (Checksum.ofBytes_append_cons_inj.1 hsame)

end Bytes

/-! ## Reading a damaged record -/

namespace Frame

theorem body_eq_header_append (payload : Bytes) :
    body payload = header payload.length ++ payload := rfl

theorem checksumBytes_inj {p q : Bytes} (h : checksumBytes p = checksumBytes q) :
    Checksum.ofBytes (body p) = Checksum.ofBytes (body q) := by
  have hnat := (toNat_eq_toNatLE_iff q (length_checksumBytes p)).2 h
  rw [checksumBytes, Bytes.toNatLE_ofNatLE (Checksum.ofBytes (body p)).isLt] at hnat
  exact (BitVec.eq_of_toNat_eq hnat).symm

/-- A payload with one byte turned over does not have the checksum of the payload. -/
theorem checksumBytes_turnOver_ne {payload : Bytes} {j : Nat} (hj : j < payload.length)
    {mask : UInt8} (hmask : mask ≠ 0) :
    checksumBytes (payload.turnOver j mask) ≠ checksumBytes payload := by
  intro hsame
  have hsum := checksumBytes_inj hsame
  rw [body_eq_header_append, body_eq_header_append, length_turnOver,
    ← turnOver_append_right] at hsum
  refine Bytes.ofBytes_turnOver_ne ?_ hmask hsum
  rw [List.length_append]
  omega

/-- Whichever byte behind the header is damaged, what stands in the place of the checksum is not
    the checksum of what stands in the place of the payload. -/
theorem turnOver_content {payload : Bytes} {j : Nat} (hj : j < payload.length + 4) {mask : UInt8}
    (hmask : mask ≠ 0) :
    ∃ content sum, (payload ++ checksumBytes payload).turnOver j mask = content ++ sum ∧
      content.length = payload.length ∧ sum.length = 4 ∧ sum ≠ checksumBytes content := by
  by_cases hinside : j < payload.length
  · -- The payload is damaged, and the checksum is the old one.
    refine ⟨payload.turnOver j mask, checksumBytes payload, turnOver_append_left hinside mask _,
      length_turnOver j mask payload, length_checksumBytes payload, ?_⟩
    exact (checksumBytes_turnOver_ne hinside hmask).symm
  · -- The checksum is damaged, and the payload is sound.
    obtain ⟨k, hk⟩ := Nat.exists_eq_add_of_le (Nat.not_lt.1 hinside)
    have hwidth : k < (checksumBytes payload).length := by
      rw [length_checksumBytes]
      omega
    refine ⟨payload, (checksumBytes payload).turnOver k mask, ?_, rfl, ?_, ?_⟩
    · rw [hk, turnOver_append_right]
    · rw [length_turnOver, length_checksumBytes]
    · exact Bytes.turnOver_ne hwidth hmask

/-- A record whose magic number is damaged is never taken for a torn tail: three bytes of the magic
    number still stand, and none of them is zero. -/
theorem read_damagedMagic (payload : Bytes) {i : Nat} (hi : i < 4) {mask : UInt8} (hmask : mask ≠ 0)
    (rest : Bytes) :
    read ((encode payload).turnOver i mask ++ rest) = .damaged .badMagic := by
  have hwidth : i < magic.length := by
    rw [length_magic]
    exact hi
  have hstart : (encode payload).turnOver i mask ++ rest =
      magic.turnOver i mask ++
        (Bytes.ofNatLE 4 payload.length ++ (payload ++ checksumBytes payload) ++ rest) := by
    rw [encode_eq, turnOver_append_left hwidth, List.append_assoc]
  have hlong : ¬ ((encode payload).turnOver i mask ++ rest).length < headerSize := by
    rw [List.length_append, length_turnOver, length_encode, overhead]
    omega
  have hmagic : ((encode payload).turnOver i mask ++ rest).take 4 ≠ magic := by
    rw [hstart, List.take_left' (by rw [length_turnOver, length_magic])]
    exact Bytes.turnOver_ne hwidth hmask
  have hzeros : ∀ i < 4, (magic.turnOver i mask).all (· = 0) = false := by
    have hbytes : magic = [0x43, 0x48, 0x42, 0x4D] := by decide
    intro i hi
    rw [hbytes]
    obtain rfl | rfl | rfl | rfl : i = 0 ∨ i = 1 ∨ i = 2 ∨ i = 3 := by omega
    · simp [Bytes.turnOver]
    · simp [Bytes.turnOver]
    · simp [Bytes.turnOver]
    · simp [Bytes.turnOver]
  rw [read, if_neg hlong, if_pos hmagic, hstart, List.all_append, hzeros i hi]
  rfl

/-- A record that is damaged behind its length: torn, if the file ends with it, and otherwise
    damage. -/
theorem read_damagedContent {payload : Bytes} (hpayload : payload.length < payloadLimit) {i : Nat}
    (hbehind : headerSize ≤ i) (hi : i < (encode payload).length) {mask : UInt8} (hmask : mask ≠ 0)
    (rest : Bytes) :
    read ((encode payload).turnOver i mask ++ rest) =
      if rest = [] then .torn else .damaged .badChecksum := by
  obtain ⟨j, hj⟩ := Nat.exists_eq_add_of_le hbehind
  have hinside : j < payload.length + 4 := by
    rw [length_encode, overhead] at hi
    omega
  obtain ⟨content, sum, hcontent, hlength, hsum, hwrong⟩ := turnOver_content hinside hmask
  have hrecord : (encode payload).turnOver i mask ++ rest =
      header content.length ++ (content ++ (sum ++ rest)) := by
    rw [encode_eq_header_append, hj, ← length_header payload.length, turnOver_append_right,
      hcontent, hlength]
    simp only [List.append_assoc]
  have hbytes : (content ++ (sum ++ rest)).length = content.length + 4 + rest.length := by
    simp only [List.length_append, hsum]
    omega
  -- The length is sound, so it selects the damaged content and the checksum in its place.
  rw [hrecord, read_header_append (by omega), if_neg (by omega), List.drop_left, List.take_left,
    List.take_left' hsum, if_neg hwrong]
  by_cases hrest : rest = []
  · rw [if_pos hrest, if_pos (by rw [hbytes, hrest]; rfl)]
  · have hmore : rest.length ≠ 0 := mt List.length_eq_zero_iff.1 hrest
    rw [if_neg hrest, if_neg (by omega)]

theorem scan_of_read_damaged {bs : Bytes} {damage : Damage} (h : read bs = .damaged damage) :
    scan bs = ⟨[], 0, .damaged damage⟩ := by
  cases bs with
  | nil => simp [read, headerSize] at h
  | cons b bs => rw [scan, h]

theorem encodeAll_eq_nil_iff {payloads : List Bytes} : encodeAll payloads = [] ↔ payloads = [] := by
  constructor
  · intro h
    cases payloads with
    | nil => rfl
    | cons p ps => simpa [overhead] using congrArg List.length h
  · intro h
    rw [h, encodeAll_nil]

end Frame

/-! ## Opening the file -/

namespace RecordFile

open ReplicaStore.Frame

/-- The file of some records in which one byte of one record is damaged. -/
def withDamagedByte (earlier : List Bytes) (payload : Bytes) (later : List Bytes) (i : Nat)
    (mask : UInt8) : Bytes :=
  (encodeAll (earlier ++ payload :: later)).turnOver ((encodeAll earlier).length + i) mask

theorem withDamagedByte_eq (earlier : List Bytes) {payload : Bytes} (later : List Bytes) {i : Nat}
    (hi : i < (encode payload).length) (mask : UInt8) :
    withDamagedByte earlier payload later i mask =
      encodeAll earlier ++ ((encode payload).turnOver i mask ++ encodeAll later) := by
  rw [withDamagedByte, encodeAll_append, turnOver_append_right, encodeAll_cons,
    turnOver_append_left hi]

/-- Frames with damaged bytes behind them are refused, and the damage is where they end. -/
theorem recover_append_of_damaged {payloads : List Bytes}
    (h : ∀ p ∈ payloads, p.length < payloadLimit) {tail : Bytes} {damage : Damage}
    (htail : Frame.read tail = .damaged damage) :
    recover (encodeAll payloads ++ tail) = .error (damage, (encodeAll payloads).length) := by
  rw [recover, scan_encodeAll_append h, scan_of_read_damaged htail]
  rfl

/-- One damaged byte outside the length field of any record of a file. In the magic number, or in a
    record that others follow, it makes opening fail at the start of that record, and the disk stays
    as it is. In the payload or the checksum of the last record it costs that record: opening
    returns the payloads before it and cuts the file where it starts. So what is returned is always
    a beginning of what was written. -/
theorem openAt_damagedByte {d : Disk} {path : String} {loc : Location} {identity : Nat}
    (earlier : List Bytes) (payload : Bytes) (later : List Bytes) (i : Nat) (mask : UInt8)
    (hfit : ∀ p ∈ earlier ++ payload :: later, p.length < payloadLimit)
    (hi : i < (encode payload).length) (hfield : i < 4 ∨ headerSize ≤ i) (hmask : mask ≠ 0)
    (hloc : d.locateFile path = .ok loc)
    (hfile : d.node? loc =
      some (.file identity (withDamagedByte earlier payload later i mask))) :
    let start := (encodeAll earlier).length
    (i < 4 →
        (openAt path).perform d = (.error (.damagedFile path start .badMagic), d)) ∧
      (headerSize ≤ i → later ≠ [] →
        (openAt path).perform d = (.error (.damagedFile path start .badChecksum), d)) ∧
      (headerSize ≤ i → later = [] →
        (openAt path).perform d =
          (.ok (⟨path, loc, identity, start⟩, earlier), d.setData loc (encodeAll earlier))) ∧
      (∀ e, ((openAt path).perform d).1 = .error e → e.kind = .dataLoss) ∧
      (∀ f payloads, ((openAt path).perform d).1 = .ok (f, payloads) →
        payloads <+: earlier ++ payload :: later) := by
  intro start
  have hearlier : ∀ p ∈ earlier, p.length < payloadLimit :=
    fun p hp => hfit p (List.mem_append_left _ hp)
  have hpayload : payload.length < payloadLimit := hfit payload (by simp)
  rw [withDamagedByte_eq earlier later hi mask] at hfile
  have hopen := perform_openAt_of_file hloc hfile
  have hmagic : i < 4 →
      (openAt path).perform d = (.error (.damagedFile path start .badMagic), d) := by
    intro hi
    have hread := read_damagedMagic payload hi hmask (encodeAll later)
    rw [hopen, recover_append_of_damaged hearlier hread]
  have hmiddle : headerSize ≤ i → later ≠ [] →
      (openAt path).perform d = (.error (.damagedFile path start .badChecksum), d) := by
    intro hbehind hlater
    have hread := read_damagedContent hpayload hbehind hi hmask (encodeAll later)
    rw [if_neg (mt encodeAll_eq_nil_iff.1 hlater)] at hread
    rw [hopen, recover_append_of_damaged hearlier hread]
  have hlast : headerSize ≤ i → later = [] →
      (openAt path).perform d =
        (.ok (⟨path, loc, identity, start⟩, earlier), d.setData loc (encodeAll earlier)) := by
    intro hbehind hlater
    have hread := read_damagedContent hpayload hbehind hi hmask (encodeAll later)
    rw [if_pos (encodeAll_eq_nil_iff.2 hlater)] at hread
    rw [hopen, recover_append_of_torn hearlier hread]
  -- These are all the cases, so every outcome is one of the three.
  have hcases : (∃ damage, ((openAt path).perform d).1 = .error (.damagedFile path start damage)) ∨
      ∃ f, ((openAt path).perform d).1 = .ok (f, earlier) := by
    obtain hfield | hfield := hfield
    · exact .inl ⟨_, congrArg Prod.fst (hmagic hfield)⟩
    · by_cases hlater : later = []
      · exact .inr ⟨_, congrArg Prod.fst (hlast hfield hlater)⟩
      · exact .inl ⟨_, congrArg Prod.fst (hmiddle hfield hlater)⟩
  refine ⟨hmagic, hmiddle, hlast, ?_, ?_⟩
  · intro e he
    obtain ⟨damage, hdamage⟩ | ⟨f, hok⟩ := hcases
    · obtain rfl : Error.damagedFile path start damage = e :=
        Except.error.inj (hdamage.symm.trans he)
      rfl
    · rw [hok] at he
      cases he
  · intro f payloads hok
    obtain ⟨damage, hdamage⟩ | ⟨f', hok'⟩ := hcases
    · rw [hdamage] at hok
      cases hok
    · obtain rfl : earlier = payloads :=
        congrArg Prod.snd (Except.ok.inj (hok'.symm.trans hok))
      exact List.prefix_append earlier _

/-- Damage in the second of three records is reported where that record starts, and the same damage
    in the last one costs that one. -/
theorem openAt_damagedByte_middle_and_last :
    let middle := soleFile (withDamagedByte [[1]] [2, 3] [[4]] 9 0x20)
    let last := soleFile (withDamagedByte [[1]] [2, 3] [] 9 0x20)
    (∀ p ∈ ([[1], [2, 3], [4]] : List Bytes), p.length < payloadLimit) ∧
      9 < (encode [2, 3]).length ∧ headerSize ≤ 9 ∧ (0x20 : UInt8) ≠ 0 ∧
      (openAt "/records").perform middle =
        (.error (.damagedFile "/records" 13 .badChecksum), middle) ∧
      (openAt "/records").perform last =
        (.ok (⟨"/records", ["records"], 0, 13⟩, [[1]]),
          last.setData ["records"] (encodeAll [[1]])) := by
  intro middle last
  have hmiddle := openAt_damagedByte [[1]] [2, 3] [[4]] 9 0x20 (by decide) (by decide)
    (.inr (by decide)) (by decide) (locateFile_soleFile _) (node?_soleFile _)
  have hlast := openAt_damagedByte [[1]] [2, 3] [] 9 0x20 (by decide) (by decide)
    (.inr (by decide)) (by decide) (locateFile_soleFile _) (node?_soleFile _)
  exact ⟨by decide, by decide, by decide, by decide, hmiddle.2.1 (by decide) (by simp),
    hlast.2.2.1 (by decide) rfl⟩

end RecordFile

end ReplicaStore
