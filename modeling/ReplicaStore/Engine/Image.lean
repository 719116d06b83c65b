import ReplicaStore.Engine.Contents
import ReplicaStore.RecordFile.Frame

/-! # The file of an engine

    Outside, an engine's file is a sequence of frames: the key and the value of each pair, in the
    order of the keys. A file that holds anything else is no engine's file. -/

namespace ReplicaStore.Contents

/-- The payloads of the frames of pairs: key and value in turn. -/
def payloadsOf : List Pair → List Bytes
  | [] => []
  | (key, value) :: pairs => key :: value :: payloadsOf pairs

/-- The pairs of payloads, if their number is even. -/
def pairsOf? : List Bytes → Option (List Pair)
  | [] => some []
  | [_] => none
  | key :: value :: payloads => (pairsOf? payloads).map ((key, value) :: ·)

/-- The bytes of the file of an engine with these contents. -/
def image (c : Contents) : Bytes :=
  Frame.encodeAll (payloadsOf c.pairs)

/-- The contents of an engine's file. -/
def ofImage? (bs : Bytes) : Option Contents :=
  let s := Frame.scan bs
  match s.ending with
  | .complete =>
    (pairsOf? s.payloads).map fun pairs => pairs.foldl (fun c p => c.insert p.1 p.2) empty
  | _ => none

@[simp] theorem pairsOf?_payloadsOf (pairs : List Pair) :
    pairsOf? (payloadsOf pairs) = some pairs := by
  induction pairs with
  | nil => rfl
  | cons p pairs ih => simp [payloadsOf, pairsOf?, ih]

end ReplicaStore.Contents
