import ReplicaStore.Json.Token

/-! # JSON values

    A value is read from its tokens one by one. What is open around the place that has been reached
    is a stack of unfinished lists and objects, and the state says what may come next; so a reading
    is a fold of single steps and ends with the tokens. -/

namespace ReplicaStore.Json

/-- A value. Objects keep their members in order, repeated names included. -/
inductive Value where
  | null
  | bool (b : Bool)
  /-- A number, with its value if it is written as a whole number. -/
  | number (whole : Option Int)
  /-- A string, with its text if it has one. -/
  | string (text : Option String)
  | array (items : List Value)
  | object (members : List (Option String × Value))

/-! ## State -/

/-- A list or an object that is not closed yet. -/
inductive Frame where
  /-- A list with the items read so far. -/
  | array (items : List Value)
  /-- An object with the members read so far and the name of the one whose value is being read. -/
  | object (members : List (Option String × Value)) (name : Option String)

/-- What has been read and what may come next; `stack` holds what is open, innermost first. -/
inductive State where
  /-- A value comes next, or the end of an empty list if `mayClose`. -/
  | value (stack : List Frame) (mayClose : Bool)
  /-- The name of a member comes next, or the end of an empty object if `mayClose`. -/
  | name (members : List (Option String × Value)) (stack : List Frame) (mayClose : Bool)
  /-- The colon after a member's name comes next. -/
  | colon (members : List (Option String × Value)) (name : Option String) (stack : List Frame)
  /-- A value is finished; the innermost list or object goes on or ends. -/
  | done (v : Value) (stack : List Frame)

def State.start : State := .value [] false

/-! ## Steps -/

/-- The step on a token where a value may start. -/
def stepValue (stack : List Frame) (mayClose : Bool) : Token → Option State
  | .null => some (.done .null stack)
  | .bool b => some (.done (.bool b) stack)
  | .number n => some (.done (.number n) stack)
  | .string s => some (.done (.string s) stack)
  | .arrayOpen => some (.value (.array [] :: stack) true)
  | .objectOpen => some (.name [] stack true)
  | .arrayClose =>
    match mayClose, stack with
    | true, .array items :: stack => some (.done (.array items) stack)
    | _, _ => none
  | _ => none

/-- The step on a token after a finished value. -/
def stepDone (v : Value) : List Frame → Token → Option State
  | .array items :: stack, .comma => some (.value (.array (items ++ [v]) :: stack) false)
  | .array items :: stack, .arrayClose => some (.done (.array (items ++ [v])) stack)
  | .object members name :: stack, .comma => some (.name (members ++ [(name, v)]) stack false)
  | .object members name :: stack, .objectClose =>
    some (.done (.object (members ++ [(name, v)])) stack)
  | _, _ => none

/-- The step on a token; `none` if it may not come next. -/
def State.step : State → Token → Option State
  | .value stack mayClose, t => stepValue stack mayClose t
  | .name members stack _, .string s => some (.colon members s stack)
  | .name members stack true, .objectClose => some (.done (.object members) stack)
  | .name _ _ _, _ => none
  | .colon members label stack, .colon => some (.value (.object members label :: stack) false)
  | .colon _ _ _, _ => none
  | .done v stack, t => stepDone v stack t

/-- The value of a list of tokens that is one value and nothing else. -/
def Value.ofTokens? (ts : List Token) : Option Value :=
  match ts.foldlM State.step State.start with
  | some (.done v []) => some v
  | _ => none

/-- The value of a text that is one value and nothing else. -/
def Value.parse? (s : String) : Option Value :=
  (tokens? s.toList).bind Value.ofTokens?

end ReplicaStore.Json
