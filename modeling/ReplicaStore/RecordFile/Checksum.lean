import ReplicaStore.Bytes

/-! # Checksum

    The Castagnoli checksum: a byte string is fed bit by bit, lowest bit first, through a register
    of 32 bits, which starts with all bits set and is complemented at the end. Main statement: one
    step of the register loses nothing (`shift_injective`). -/

namespace ReplicaStore.Checksum

abbrev Register := BitVec 32

/-- The polynomial, lowest power in the highest bit. -/
def polynomial : Register := 0x82F63B78

/-- The register after one bit. -/
def shift (r : Register) : Register :=
  if r.getLsbD 0 then (r >>> 1) ^^^ polynomial else r >>> 1

/-- The register after eight bits. -/
def shiftByte (r : Register) : Register :=
  shift (shift (shift (shift (shift (shift (shift (shift r)))))))

/-- The register after a byte. -/
def feed (r : Register) (b : UInt8) : Register :=
  shiftByte (r ^^^ b.toBitVec.setWidth 32)

def feedAll (r : Register) (bs : Bytes) : Register :=
  bs.foldl feed r

def ofBytes (bs : Bytes) : Register :=
  ~~~ feedAll (BitVec.allOnes 32) bs

/-! ## The register -/

/-- The highest bit of a shifted register is the lowest bit that went in. -/
theorem getLsbD_shift_31 (r : Register) : (shift r).getLsbD 31 = r.getLsbD 0 := by
  have hpoly : polynomial.getLsbD 31 = true := by decide
  unfold shift
  cases h : r.getLsbD 0 with
  | true => simp [hpoly]
  | false => simp

/-- A step loses nothing: the highest bit tells the bit that went in, and the others are the
    rest. -/
theorem shift_injective {r s : Register} (h : shift r = shift s) : r = s := by
  have hlow : r.getLsbD 0 = s.getLsbD 0 := by
    rw [← getLsbD_shift_31 r, ← getLsbD_shift_31 s, h]
  apply BitVec.eq_of_getLsbD_eq
  intro i hi
  cases i with
  | zero => exact hlow
  | succ i =>
    have hbit := congrArg (fun t => BitVec.getLsbD t i) h
    unfold shift at hbit
    rw [hlow] at hbit
    generalize s.getLsbD 0 = low at hbit
    cases low <;> simpa [Nat.add_comm] using hbit

end ReplicaStore.Checksum
