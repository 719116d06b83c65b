/-! # Values of a configuration text

    A table remembers how it came to be, because that decides what may be added to it later: a table
    of a header or of a value is complete in itself, one that a longer header implied may still get
    its own header, and one that dotted keys made may get more dotted keys. -/

namespace ReplicaStore.Toml

/-- How a table came to be. -/
inductive Origin where
  /-- By its header. -/
  | header
  /-- By the header of a table inside it. -/
  | implied
  /-- By a dotted key. -/
  | dotted
  /-- As a value. -/
  | inline
deriving DecidableEq, Repr

/-- A value. Floating-point numbers and dates keep nothing: no setting is one. -/
inductive Value where
  | string (s : String)
  | integer (z : Int)
  | float
  | boolean (b : Bool)
  | moment
  | array (items : List Value)
  | table (origin : Origin) (entries : List (String × Value))
  /-- The tables that headers in double brackets made, in order. -/
  | tables (items : List (List (String × Value)))

/-- The entries of a table, in order. -/
abbrev Entries := List (String × Value)

namespace Entries

def replace (key : String) (v : Value) (es : Entries) : Entries :=
  es.map fun e => if e.1 = key then (key, v) else e

/-- The entries with the value of a dotted key added. Tables on the way are made where they are
    missing; a table that stands on the way must have come from dotted keys or be implied, and the
    innermost one must have come from dotted keys. -/
def setDotted (es : Entries) (key : String) (v : Value) : (path : List String) → Option Entries
  | [] => if (es.lookup key).isSome then none else some (es ++ [(key, v)])
  | p :: path =>
    match es.lookup p with
    | none => do
      let inner ← setDotted [] key v path
      return es ++ [(p, .table .dotted inner)]
    | some (.table .dotted inner) => do
      let inner ← setDotted inner key v path
      return replace p (.table .dotted inner) es
    | some (.table .implied inner) =>
      if path.isEmpty then none
      else do
        let inner ← setDotted inner key v path
        return replace p (.table .implied inner) es
    | some (.tables items) =>
      if path.isEmpty then none
      else do
        let last ← items.getLast?
        let last ← setDotted last key v path
        return replace p (.tables (items.dropLast ++ [last])) es
    | some _ => none

/-- The entries after a change to the table at a path. Tables on the way are implied where they are
    missing; of several tables under one key the last one counts. -/
def changeAt (change : Entries → Option Entries) : (path : List String) → Entries → Option Entries
  | [], es => change es
  | p :: path, es =>
    match es.lookup p with
    | none => do
      let inner ← changeAt change path []
      return es ++ [(p, .table .implied inner)]
    | some (.table .inline _) => none
    | some (.table origin inner) => do
      let inner ← changeAt change path inner
      return replace p (.table origin inner) es
    | some (.tables items) => do
      let last ← items.getLast?
      let last ← changeAt change path last
      return replace p (.tables (items.dropLast ++ [last])) es
    | some _ => none

/-- The entries with the table of a header opened: a new one, or one that was implied. -/
def openTable (key : String) (es : Entries) : Option Entries :=
  match es.lookup key with
  | none => some (es ++ [(key, .table .header [])])
  | some (.table .implied inner) => some (replace key (.table .header inner) es)
  | some _ => none

/-- The entries with one more table under the key of a header in double brackets. -/
def pushTable (key : String) (es : Entries) : Option Entries :=
  match es.lookup key with
  | none => some (es ++ [(key, .tables [[]])])
  | some (.tables items) => some (replace key (.tables (items ++ [[]])) es)
  | some _ => none

end Entries

end ReplicaStore.Toml
