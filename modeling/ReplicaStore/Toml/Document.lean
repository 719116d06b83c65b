import ReplicaStore.Toml.Scalar
import ReplicaStore.Toml.Token

/-! # Documents

    A document is read token by token. The state is the table that has been built so far, the path
    of the header that is in force, and the place that has been reached on the line, with the arrays
    and tables that are open around it. Each step either leads to the next state or refuses the
    text; so a reading is a fold of single steps and ends with the tokens. -/

namespace ReplicaStore.Toml

/-! ## State -/

/-- An array or a table value that is not closed yet. -/
inductive Frame where
  /-- An array with the items read so far. -/
  | array (items : List Value)
  /-- A table with the entries read so far and the key whose value is being read. -/
  | table (entries : Entries) (path : List String) (key : String)

/-- What a key is read for. -/
inductive KeyPlace where
  /-- A line of a key and its value. -/
  | line
  /-- A header, in double brackets if `double`. -/
  | header (double : Bool)
  /-- An entry of a table value, with the entries before it and what is open around it. -/
  | entry (entries : Entries) (stack : List Frame)

/-- A place in a document. -/
inductive Place where
  /-- Where a line starts. -/
  | lineStart
  /-- Right after the bracket that starts a header. -/
  | headerStart
  /-- Where a piece of a key must come, after the pieces before it. -/
  | keyPiece (place : KeyPlace) (pieces : List String)
  /-- After a piece of a key. -/
  | keyRest (place : KeyPlace) (pieces : List String)
  /-- After the first closing bracket of a header in double brackets. -/
  | headerEnd (pieces : List String)
  /-- Right after the brace that starts a table value. -/
  | tableStart (stack : List Frame)
  /-- Where a value must come, or the end of an array if `mayClose`. -/
  | value (stack : List Frame) (mayClose : Bool)
  /-- Inside a value without quotes. -/
  | scalar (text : List Char) (stack : List Frame)
  /-- After a value without quotes and one space; a time of day may follow a date. -/
  | scalarSpace (text : List Char) (stack : List Frame)
  /-- After a value. -/
  | valueEnd (v : Value) (stack : List Frame)
  /-- After a header. -/
  | lineRest

/-- What has been read. -/
structure Reading where
  /-- The table of the whole document. -/
  root : Entries
  /-- The path of the header in force. -/
  header : List String
  /-- The path and the last piece of the key whose value is being read on this line. -/
  key : List String × String
  /-- The place. -/
  place : Place

def Reading.start : Reading := ⟨[], [], ([], ""), .lineStart⟩

/-- How many values may stand inside each other, and how many pieces a key may have. -/
def depthLimit : Nat := 80

/-! ## Steps -/

/-- The path and the last piece of a key. -/
def splitKey (pieces : List String) : Option (List String × String) :=
  if depthLimit ≤ pieces.length then none
  else pieces.getLast?.map fun last => (pieces.dropLast, last)

/-- The piece of a key that a token writes: a bare key or a string on one line. -/
def keyPiece? : Token → Option String
  | .word text =>
    if text.all (fun c => c ≠ '+' ∧ c ≠ ':') then some (String.ofList text) else none
  | .string text false => some (String.ofList text)
  | _ => none

namespace Reading

/-- The reading at another place. -/
def goTo (r : Reading) (place : Place) : Reading := { r with place }

/-- Enters the value of a key. -/
def enterValue (r : Reading) : KeyPlace → List String → Option Reading
  | .line, pieces => do
    let key ← splitKey pieces
    return { r with key, place := .value [] false }
  | .entry entries stack, pieces => do
    let (path, key) ← splitKey pieces
    return r.goTo (.value (.table entries path key :: stack) false)
  | .header _, _ => none

/-- Puts a header into force. -/
def enterHeader (r : Reading) (double : Bool) (pieces : List String) : Option Reading := do
  let (path, key) ← splitKey pieces
  let change := if double then Entries.pushTable key else Entries.openTable key
  let root ← Entries.changeAt change path r.root
  return { r with root, header := pieces, place := .lineRest }

/-- Ends a line of a key and its value. -/
def enterLine (r : Reading) (v : Value) : Option Reading := do
  let set := fun es => Entries.setDotted es r.key.2 v r.key.1
  let root ← Entries.changeAt set r.header r.root
  return { r with root, place := .lineStart }

/-- The step on a token after a value. -/
def stepValueEnd (r : Reading) (v : Value) : List Frame → Token → Option Reading
  | stack, .blank _ => some (r.goTo (.valueEnd v stack))
  | [], .newline => r.enterLine v
  | .array items :: stack, .newline => some (r.goTo (.valueEnd v (.array items :: stack)))
  | .array items :: stack, .comma => some (r.goTo (.value (.array (items ++ [v]) :: stack) true))
  | .array items :: stack, .arrayClose =>
    some (r.goTo (.valueEnd (.array (items ++ [v])) stack))
  | .table entries path key :: stack, .comma => do
    let entries ← entries.setDotted key v path
    return r.goTo (.keyPiece (.entry entries stack) [])
  | .table entries path key :: stack, .tableClose => do
    let entries ← entries.setDotted key v path
    return r.goTo (.valueEnd (.table .inline entries) stack)
  | _, _ => none

/-- The step on a token where a value must come. -/
def stepValue (r : Reading) (stack : List Frame) (mayClose : Bool) : Token → Option Reading
  | .blank _ => some (r.goTo (.value stack mayClose))
  | .newline =>
    match stack with
    | .array _ :: _ => some (r.goTo (.value stack mayClose))
    | _ => none
  | .string text _ => some (r.goTo (.valueEnd (.string (String.ofList text)) stack))
  | .word text => some (r.goTo (.scalar text stack))
  | .arrayOpen =>
    if depthLimit ≤ stack.length + 1 then none
    else some (r.goTo (.value (.array [] :: stack) true))
  | .arrayClose =>
    match mayClose, stack with
    | true, .array items :: stack => some (r.goTo (.valueEnd (.array items) stack))
    | _, _ => none
  | .tableOpen =>
    if depthLimit ≤ stack.length + 1 then none else some (r.goTo (.tableStart stack))
  | _ => none

/-- The step on a token; `none` if it may not come next. -/
def step (r : Reading) (t : Token) : Option Reading :=
  match r.place, t with
  | .lineStart, .newline => some r
  | .lineStart, .blank _ => some r
  | .lineStart, .arrayOpen => some (r.goTo .headerStart)
  | .lineStart, t => do return r.goTo (.keyRest .line [← keyPiece? t])
  | .headerStart, .arrayOpen => some (r.goTo (.keyPiece (.header true) []))
  | .headerStart, .blank _ => some (r.goTo (.keyPiece (.header false) []))
  | .headerStart, t => do return r.goTo (.keyRest (.header false) [← keyPiece? t])
  | .keyPiece place pieces, .blank _ => some (r.goTo (.keyPiece place pieces))
  | .keyPiece place pieces, t => do return r.goTo (.keyRest place (pieces ++ [← keyPiece? t]))
  | .keyRest place pieces, .blank _ => some (r.goTo (.keyRest place pieces))
  | .keyRest place pieces, .dot => some (r.goTo (.keyPiece place pieces))
  | .keyRest place pieces, .equals => r.enterValue place pieces
  | .keyRest (.header false) pieces, .arrayClose => r.enterHeader false pieces
  | .keyRest (.header true) pieces, .arrayClose => some (r.goTo (.headerEnd pieces))
  | .keyRest _ _, _ => none
  | .headerEnd pieces, .arrayClose => r.enterHeader true pieces
  | .headerEnd _, _ => none
  | .tableStart stack, .blank _ => some (r.goTo (.tableStart stack))
  | .tableStart stack, .tableClose => some (r.goTo (.valueEnd (.table .inline []) stack))
  | .tableStart stack, t => do return r.goTo (.keyRest (.entry [] stack) [← keyPiece? t])
  | .value stack mayClose, t => r.stepValue stack mayClose t
  | .scalar text stack, .word more => some (r.goTo (.scalar (text ++ more) stack))
  | .scalar text stack, .dot => some (r.goTo (.scalar (text ++ ['.']) stack))
  -- A date and a time of day may stand one space apart, so a single space does not end a value yet.
  | .scalar text stack, .blank true => some (r.goTo (.scalarSpace text stack))
  | .scalar text stack, t => do r.stepValueEnd (← scalar? text) stack t
  | .scalarSpace text stack, .word more => some (r.goTo (.scalar (text ++ ' ' :: more) stack))
  | .scalarSpace text stack, t => do r.stepValueEnd (← scalar? text) stack t
  | .valueEnd v stack, t => r.stepValueEnd v stack t
  | .lineRest, .blank _ => some r
  | .lineRest, .newline => some (r.goTo .lineStart)
  | .lineRest, _ => none

end Reading

/-- The table of a text. The text may start with a byte order mark, and its last line needs no
    end. -/
def document? (s : String) : Option Entries := do
  let cs := match s.toList with
    | '\uFEFF' :: cs => cs
    | cs => cs
  let r ← ((← tokens? cs) ++ [Token.newline]).foldlM Reading.step Reading.start
  match r.place with
  | .lineStart => some r.root
  | _ => none

end ReplicaStore.Toml
