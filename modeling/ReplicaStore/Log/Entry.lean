/-! # Log entries

    An entry is one replicated operation on a key, on behalf of a user, in a term of the leader. Its
    slot is its position in the log and no part of it. -/

namespace ReplicaStore

/-- What an entry does when it is applied. -/
inductive Operation where
  /-- A barrier of the leader; applies nothing. -/
  | noOp
  | put
  | delete
deriving DecidableEq, Repr, Inhabited

namespace Operation

/-- The byte that stands for an operation in a record. -/
def opcode : Operation → UInt8
  | .noOp => 0
  | .put => 1
  | .delete => 2

def ofOpcode? (b : UInt8) : Option Operation :=
  if b = 0 then some .noOp else if b = 1 then some .put else if b = 2 then some .delete else none

def name : Operation → String
  | .noOp => "NoOp"
  | .put => "Put"
  | .delete => "Delete"

def ofName? (s : String) : Option Operation :=
  if s = "NoOp" then some .noOp
  else if s = "Put" then some .put
  else if s = "Delete" then some .delete
  else none

@[simp] theorem ofOpcode?_opcode (op : Operation) : ofOpcode? op.opcode = some op := by
  cases op <;> rfl

theorem ofOpcode?_eq_some_iff {b : UInt8} {op : Operation} :
    ofOpcode? b = some op ↔ b = op.opcode := by
  constructor
  · intro h
    unfold ofOpcode? at h
    split at h
    · cases h; assumption
    · split at h
      · cases h; assumption
      · split at h
        · cases h; assumption
        · cases h
  · rintro rfl
    exact ofOpcode?_opcode op

@[simp] theorem ofName?_name (op : Operation) : ofName? op.name = some op := by
  cases op <;> simp [ofName?, name]

end Operation

/-- One replicated operation. -/
structure Entry where
  operation : Operation
  /-- On whose behalf. -/
  user : String
  /-- To which key. -/
  key : String
  /-- With which value; empty where none is needed. -/
  value : String
  /-- The term of the leader that made the entry. -/
  term : Int64
deriving DecidableEq, Repr, Inhabited

namespace Entry

/-- A barrier in a term. -/
def noOp (term : Int64) : Entry :=
  ⟨.noOp, "", "", "", term⟩

def put (user key value : String) (term : Int64) : Entry :=
  ⟨.put, user, key, value, term⟩

def delete (user key : String) (term : Int64) : Entry :=
  ⟨.delete, user, key, "", term⟩

/-- The entry with nothing in it: a barrier in term zero. -/
def blank : Entry := noOp 0

end Entry

end ReplicaStore
