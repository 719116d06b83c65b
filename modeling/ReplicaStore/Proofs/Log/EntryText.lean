import ReplicaStore.Log.EntryJson
import ReplicaStore.Proofs.Json.RoundTrip

/-! # The text of an entry

    An entry is written as an object of four strings and a number, and the object reads back as the
    entry. Members of other names are left unread, so the slot in front of a dumped entry changes
    nothing.

    * `members_eq`, `membersAt_eq`: the members of the two objects.
    * `ofValue?_of_hasOnce`: what an object must have.
    * `ofJson?_toJson`, `ofJson?_toJsonAt`: both texts read back. -/

namespace ReplicaStore.Entry

open Json

variable {e : Entry} {slot : Nat}

/-! ## Members -/

/-- The members of an entry's object. -/
def asMembers (e : Entry) : List Member :=
  [⟨"operation", .text e.operation.name⟩, ⟨"user", .text e.user⟩, ⟨"key", .text e.key⟩,
    ⟨"value", .text e.value⟩, ⟨"term", .whole e.term.toInt⟩]

/-- The member for the slot of an entry. -/
def slotMember (slot : Nat) : Member :=
  ⟨"index", .whole slot⟩

theorem members_eq (e : Entry) : e.members = e.asMembers.map Member.write := rfl

theorem membersAt_eq (slot : Nat) (e : Entry) :
    writeMember "index" (Decimal.ofNat slot) :: e.members =
      (slotMember slot :: e.asMembers).map Member.write := by
  have hdigits : Decimal.ofInt slot = Decimal.ofNat slot := by
    unfold Decimal.ofInt
    rw [if_neg (Int.not_lt.2 (Int.natCast_nonneg slot))]
    rfl
  rw [members_eq, List.map_cons, slotMember, Member.write]
  show _ = writeMember "index" (Decimal.ofInt slot) :: _
  rw [hdigits]

/-! ## Reading -/

theorem termOf?_number (term : Int64) : termOf? (.number (some term.toInt)) = some term := by
  have hrange : -2 ^ 63 ≤ term.toInt ∧ term.toInt < 2 ^ 63 := ⟨term.le_toInt, term.toInt_lt⟩
  rw [termOf?, if_pos hrange, Int64.ofInt_toInt]

theorem operationOf?_name (operation : Operation) :
    operationOf? (.string (some operation.name)) = some operation :=
  Operation.ofName?_name operation

/-- The five values of an entry are read as the entry. -/
theorem ofValues?_values (e : Entry) :
    ofValues? (.string (some e.operation.name)) (.string (some e.user)) (.string (some e.key))
      (.string (some e.value)) (.number (some e.term.toInt)) = some e := by
  unfold ofValues?
  rw [operationOf?_name, termOf?_number]
  rfl

/-- Whether a member is among others, and no other one has its name. -/
def HasOnce (ms : List Member) (m : Member) : Prop :=
  ms.filter (fun other => other.name = m.name) = [m]

theorem single?_of_hasOnce {ms : List Member} {m : Member} (h : HasOnce ms m) :
    single? m.name (ms.map Member.read) = some m.scalar.value := by
  -- Names are compared as they were read, and every member of the object was read with its name.
  have hname : (fun v : Option String × Value => decide (v.1 = some m.name)) ∘ Member.read =
      fun other => decide (other.name = m.name) := by
    funext other
    simp [Member.read]
  have hfilter : (ms.map Member.read).filter (fun v => v.1 = some m.name) = [m.read] := by
    rw [List.filter_map, hname, h]
    rfl
  unfold single?
  rw [hfilter]
  rfl

/-- An entry is read of an object that has each of its members once, in any order and with others
    among them. -/
theorem ofValue?_of_hasOnce {ms : List Member} (h : ∀ m ∈ e.asMembers, HasOnce ms m) :
    ofValue? (.object (ms.map Member.read)) = some e := by
  -- No name of a member is lost in reading, and each of the five names is found once.
  have hnamed : (ms.map Member.read).all (fun m => m.1.isSome) = true := by
    rw [List.all_eq_true]
    intro m hm
    obtain ⟨member, -, rfl⟩ := List.mem_map.1 hm
    rfl
  have hfound : ∀ m ∈ e.asMembers, single? m.name (ms.map Member.read) = some m.scalar.value :=
    fun m hm => single?_of_hasOnce (h m hm)
  simp only [asMembers, List.forall_mem_cons] at hfound
  obtain ⟨hoperation, huser, hkey, hvalue, hterm, -⟩ := hfound
  rw [ofValue?, if_pos hnamed, hoperation, huser, hkey, hvalue, hterm]
  exact ofValues?_values e

theorem hasOnce_asMembers (e : Entry) : ∀ m ∈ e.asMembers, HasOnce e.asMembers m := by
  simp [asMembers, HasOnce]

/-- The member for the slot has a name of its own. -/
theorem hasOnce_slotMember_cons (slot : Nat) (e : Entry) :
    ∀ m ∈ e.asMembers, HasOnce (slotMember slot :: e.asMembers) m := by
  simp [asMembers, HasOnce, slotMember]

/-! ## Whole texts -/

theorem parse?_toJson (e : Entry) :
    Value.parse? e.toJson = some (.object (e.asMembers.map Member.read)) := by
  unfold toJson
  rw [members_eq]
  exact parse?_write e.asMembers

theorem parse?_toJsonAt (slot : Nat) (e : Entry) :
    Value.parse? (e.toJsonAt slot) =
      some (.object ((slotMember slot :: e.asMembers).map Member.read)) := by
  unfold toJsonAt
  rw [membersAt_eq]
  exact parse?_write (slotMember slot :: e.asMembers)

theorem ofJson?_toJson (e : Entry) : ofJson? e.toJson = some e := by
  unfold ofJson?
  rw [parse?_toJson, Option.bind_some]
  exact ofValue?_of_hasOnce (hasOnce_asMembers e)

theorem ofJson?_toJsonAt (slot : Nat) (e : Entry) : ofJson? (e.toJsonAt slot) = some e := by
  unfold ofJson?
  rw [parse?_toJsonAt, Option.bind_some]
  exact ofValue?_of_hasOnce (hasOnce_slotMember_cons slot e)

theorem le_toNat_of_mem_toJson {c : Char} (h : c ∈ e.toJson.toList) : 0x20 ≤ c.toNat := by
  unfold toJson at h
  rw [String.toList_ofList, members_eq] at h
  exact le_toNat_of_mem_write h

theorem le_toNat_of_mem_toJsonAt {c : Char} (h : c ∈ (e.toJsonAt slot).toList) :
    0x20 ≤ c.toNat := by
  unfold toJsonAt at h
  rw [String.toList_ofList, membersAt_eq] at h
  exact le_toNat_of_mem_write h

end ReplicaStore.Entry
