import ReplicaStore.Json.Text
import ReplicaStore.Json.Value
import ReplicaStore.Log.Entry

/-! # Entries as JSON

    An entry is written as one object on one line: operation, user, key, value and term, in this
    order. It is read from an object that has each of the five members once, in any order and with
    others among them, or from a list of the five values. -/

namespace ReplicaStore.Entry

/-! ## Writing -/

def members (e : Entry) : List (List Char) :=
  [Json.writeMember "operation" (Json.writeString e.operation.name),
    Json.writeMember "user" (Json.writeString e.user),
    Json.writeMember "key" (Json.writeString e.key),
    Json.writeMember "value" (Json.writeString e.value),
    Json.writeMember "term" (Decimal.ofInt e.term.toInt)]

def toJson (e : Entry) : String :=
  String.ofList (Json.writeObject e.members)

/-- The object of the entry in a slot, with the slot as first member. -/
def toJsonAt (slot : Nat) (e : Entry) : String :=
  String.ofList (Json.writeObject (Json.writeMember "index" (Decimal.ofNat slot) :: e.members))

/-! ## Reading -/

/-- The text of a value that is a string. -/
def textOf? : Json.Value → Option String
  | .string text => text
  | _ => none

/-- The term of a value that is a whole number in range. -/
def termOf? : Json.Value → Option Int64
  | .number (some z) => if -2 ^ 63 ≤ z ∧ z < 2 ^ 63 then some (Int64.ofInt z) else none
  | _ => none

/-- The operation of a value: its name, or an object whose only member has the name and no value. -/
def operationOf? : Json.Value → Option Operation
  | .string (some name) => Operation.ofName? name
  | .object [(some name, .null)] => Operation.ofName? name
  | _ => none

/-- The value of the member of this name, if there is exactly one. -/
def single? (name : String) (ms : List (Option String × Json.Value)) : Option Json.Value :=
  match ms.filter (fun m => m.1 = some name) with
  | [(_, v)] => some v
  | _ => none

/-- The entry of five values. -/
def ofValues? (operation user key value term : Json.Value) : Option Entry := do
  return ⟨← operationOf? operation, ← textOf? user, ← textOf? key, ← textOf? value, ← termOf? term⟩

def ofValue? : Json.Value → Option Entry
  | .object ms =>
    if ms.all (fun m => m.1.isSome) then do
      ofValues? (← single? "operation" ms) (← single? "user" ms) (← single? "key" ms)
        (← single? "value" ms) (← single? "term" ms)
    else none
  | .array [operation, user, key, value, term] => ofValues? operation user key value term
  | _ => none

def ofJson? (s : String) : Option Entry :=
  (Json.Value.parse? s).bind ofValue?

end ReplicaStore.Entry
