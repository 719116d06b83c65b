import Mathlib.Data.List.Sort
import Mathlib.Data.String.Basic
import ReplicaStore.Proofs.Engine.Pointer
import ReplicaStore.Proofs.Namespace.Operations

/-! # Tables of namespaces

    What can happen to the database of one directory in the course of time: it is made, and dropped
    together with its readers; its namespaces are opened and closed, read, written and walked, in
    whatever order. Calls that look up, write, or open an engine may fail.

    An ideal session takes these steps on a table, which has contents for every name and knows which
    names are open; a table has no disk, no engines and no identities.

    * `Ideal.step`: what a step answers, and does to the table.
    * `Lawful`: what a table promises for every step.
    * `get?_run`: a key has the value that was put last, unless it was deleted since. -/

namespace ReplicaStore.Database

/-! ## Steps -/

inductive Label where
  /-- It is made; one that is there stays. -/
  | create (f : Fault)
  /-- It is dropped, and its readers before it. -/
  | drop
  | openNamespace (f : Fault) (name : String)
  | closeNamespace (name : String)
  /-- The names of the open namespaces are asked for. -/
  | namespaces
  | get (f : Fault) (name : String) (key : Bytes)
  | put (f : Fault) (name : String) (key value : Bytes)
  | delete (f : Fault) (name : String) (key : Bytes)
  | iterate (name : String)
  | move (reader : Nat) (m : Move)
  | dropReader (reader : Nat)

inductive Reply where
  | done
  | value (v : Bytes)
  | names (names : List String)
  | reader (made : Bool)
  /-- The pair that a reader stands at, if it stands at one. -/
  | pair (p : Option Pair)
deriving DecidableEq

abbrev Answer := Option (Except Error Reply)

/-- Contents for every namespace; while the database is there, the names of the open ones, in
    ascending order; and readers, with what they read. -/
structure Ideal where
  tables : String → Contents
  opened : Option (List String)
  readers : List (String × Pointer)

namespace Ideal

/-- Nothing is stored, and there is no database. -/
def blank : Ideal := ⟨fun _ => Contents.empty, none, []⟩

/-- Names in ascending order, with one more. -/
def insertName (name : String) (names : List String) : List String :=
  if name ∈ names then names else names.orderedInsert (· ≤ ·) name

/-- A step on the open names, if the database is there. -/
def onNames (i : Ideal) (step : List String → Answer × Ideal) : Answer × Ideal :=
  match i.opened with
  | none => (none, i)
  | some names => step names

/-- A step on the contents of an open namespace. -/
def onTable (i : Ideal) (name : String) (step : Contents → Except Error Reply × Contents) :
    Answer × Ideal :=
  i.onNames fun names =>
    if name ∈ names then
      let (r, c) := step (i.tables name)
      (some r, { i with tables := Function.update i.tables name c })
    else (some (.error (.closedNamespace name)), i)

def lookup (f : Fault) (name : String) (key : Bytes) (c : Contents) :
    Except Error Reply × Contents :=
  if f.fails (.get key) then (.error (.engine (Call.get key).failure), c)
  else match c.get? key with
    | some value => (.ok (.value value), c)
    | none => (.error (.missingKey key name), c)

def write (f : Fault) (w : Write) (c : Contents) : Except Error Reply × Contents :=
  if f.fails (.write [w]) then (.error (.engine (Call.write [w]).failure), c)
  else (.ok .done, c.apply w)

def step (root : String) (i : Ideal) : Label → Answer × Ideal
  | .create f =>
    match i.opened with
    | some _ => (none, i)
    | none =>
      match outcome root f defaultNamespace false false with
      | .error e => (some (.error e), i)
      | .ok () => (some (.ok .done), { i with opened := some [defaultNamespace] })
  | .drop => i.onNames fun _ => (some (.ok .done), { i with opened := none, readers := [] })
  | .openNamespace f name => i.onNames fun names =>
    match outcome root f name (decide (name ∈ names)) (decide (name ∈ i.readers.map Prod.fst)) with
    | .error e => (some (.error e), i)
    | .ok () => (some (.ok .done), { i with opened := some (insertName name names) })
  | .closeNamespace name => i.onNames fun names =>
    (some (.ok .done), { i with opened := some (names.filter (· ≠ name)) })
  | .namespaces => i.onNames fun names => (some (.ok (.names names)), i)
  | .get f name key => i.onTable name (lookup f name key)
  | .put f name key value => i.onTable name (write f (.put key value))
  | .delete f name key => i.onTable name (write f (.delete key))
  | .iterate name => i.onNames fun names =>
    if name ∈ names then
      (some (.ok (.reader true)),
        { i with readers := (name, .before (i.tables name).pairs) :: i.readers })
    else (some (.ok (.reader false)), i)
  | .move reader m =>
    match i.readers[reader]? with
    | none => (none, i)
    | some (name, p) =>
      (some (.ok (.pair (p.move m).current)),
        { i with readers := i.readers.set reader (name, p.move m) })
  | .dropReader reader =>
    match i.readers[reader]? with
    | none => (none, i)
    | some _ => (some (.ok .done), { i with readers := i.readers.eraseIdx reader })

def run (root : String) (i : Ideal) (labels : List Label) : Ideal :=
  labels.foldl (fun i label => (i.step root label).2) i

def answers (root : String) (i : Ideal) : List Label → List Answer
  | [] => []
  | label :: labels => (i.step root label).1 :: answers root (i.step root label).2 labels

end Ideal

/-! ## Names in order -/

theorem mem_insertName_iff {name other : String} {names : List String} :
    other ∈ Ideal.insertName name names ↔ other = name ∨ other ∈ names := by
  unfold Ideal.insertName
  split
  · rename_i hmem
    constructor
    · exact .inr
    · rintro (rfl | hother)
      · exact hmem
      · exact hother
  · exact List.mem_orderedInsert _

theorem ascending_insertName {name : String} {names : List String}
    (h : names.Pairwise (· < ·)) : (Ideal.insertName name names).Pairwise (· < ·) := by
  unfold Ideal.insertName
  split
  · exact h
  · rename_i hnot
    have hle : names.Pairwise (· ≤ ·) := h.imp fun hlt => le_of_lt hlt
    have hsorted := hle.orderedInsert (r := (· ≤ ·)) name
    -- Inserting keeps the order, and as the name was not there, no two are the same.
    have hnodup : (names.orderedInsert (· ≤ ·) name).Nodup := by
      rw [(List.perm_orderedInsert _ name names).nodup_iff]
      exact List.nodup_cons.2 ⟨hnot, h.imp fun hlt => ne_of_lt hlt⟩
    exact hsorted.imp₂ (fun _ _ hle hne => lt_of_le_of_ne hle hne) hnodup

/-! ## Laws -/

/-- The namespace whose keys a step looks up or writes. -/
def Label.asked? : Label → Option String
  | .get _ name _ => some name
  | .put _ name _ _ => some name
  | .delete _ name _ => some name
  | _ => none

/-- What a step writes, and the namespace that it writes to. -/
def Label.write? : Label → Option (String × Write)
  | .put _ name key value => some (name, .put key value)
  | .delete _ name key => some (name, .delete key)
  | _ => none

/-- The namespace that a step writes to. -/
def Label.written? (label : Label) : Option String :=
  label.write?.map Prod.fst

/-- What a table promises for the steps from it on. -/
structure Lawful (root : String) (i : Ideal) : Prop where
  /-- A step that fails changes nothing. -/
  error : ∀ label e, (i.step root label).1 = some (.error e) → (i.step root label).2 = i
  /-- A step changes the contents of no namespace but the one that it writes to. -/
  isolated : ∀ label name, label.written? ≠ some name →
    (i.step root label).2.tables name = i.tables name
  /-- Nothing is found in a namespace that is not open, and nothing is written to it. -/
  closed : ∀ names name, i.opened = some names → name ∉ names → ∀ label, label.asked? = some name →
    ∃ e : Error, e.kind = .notFound ∧ i.step root label = (some (.error e), i)
  /-- A key that has a value is found. -/
  found : ∀ names name f key value, i.opened = some names → name ∈ names →
    f.fails (.get key) = false → (i.tables name).get? key = some value →
    i.step root (.get f name key) = (some (.ok (.value value)), i)
  /-- A key that has none is not. -/
  missing : ∀ names name f key, i.opened = some names → name ∈ names →
    f.fails (.get key) = false → (i.tables name).get? key = none →
    ∃ e : Error, e.kind = .notFound ∧ i.step root (.get f name key) = (some (.error e), i)
  /-- A namespace that is open may be opened. -/
  openedAgain : ∀ names name f, i.opened = some names → name ∈ names → isValidName name = true →
    i.step root (.openNamespace f name) = (some (.ok .done), i)
  /-- A namespace that is closed may be closed. -/
  closedAgain : ∀ names name, i.opened = some names → name ∉ names →
    i.step root (.closeNamespace name) = (some (.ok .done), i)
  /-- A new database has one namespace open. -/
  created : ∀ f, (i.step root (.create f)).1 = some (.ok .done) →
    (i.step root (.create f)).2.opened = some [defaultNamespace]

namespace Ideal

variable {root name : String} {i : Ideal} {f : Fault} {key : Bytes} {names : List String}
  {step : Contents → Except Error Reply × Contents}

/-! ### Steps on the open names -/

theorem onNames_ne_error {onOpen : List String → Answer × Ideal} {e : Error}
    (honOpen : ∀ names, (onOpen names).1 ≠ some (.error e)) :
    (i.onNames onOpen).1 ≠ some (.error e) := by
  unfold onNames
  cases i.opened with
  | none => exact nofun
  | some names => exact honOpen names

theorem tables_onNames {onOpen : List String → Answer × Ideal}
    (honOpen : ∀ names, (onOpen names).2.tables = i.tables) :
    (i.onNames onOpen).2.tables = i.tables := by
  unfold onNames
  cases i.opened with
  | none => rfl
  | some names => exact honOpen names

/-! ### Steps on one table -/

theorem onTable_of_mem (hopened : i.opened = some names) (hmem : name ∈ names) :
    i.onTable name step =
      (some (step (i.tables name)).1,
        { i with tables := Function.update i.tables name (step (i.tables name)).2 }) := by
  simp only [onTable, onNames, hopened, if_pos hmem]

theorem onTable_of_not_mem (hopened : i.opened = some names) (hnot : name ∉ names) :
    i.onTable name step = (some (.error (.closedNamespace name)), i) := by
  simp only [onTable, onNames, hopened, if_neg hnot]

theorem onTable_of_none (hnone : i.opened = none) : i.onTable name step = (none, i) := by
  simp only [onTable, onNames, hnone]

/-- Where contents stay, the whole table stays. -/
theorem onTable_of_kept (hkeeps : ∀ c, (step c).2 = c) : (i.onTable name step).2 = i := by
  cases hopened : i.opened with
  | none => rw [onTable_of_none hopened]
  | some names =>
    by_cases hmem : name ∈ names
    · rw [onTable_of_mem hopened hmem, hkeeps, Function.update_eq_self]
    · rw [onTable_of_not_mem hopened hmem]

/-- Where contents stay if a step fails, the whole table stays. -/
theorem onTable_of_error (hkeeps : ∀ c e, (step c).1 = .error e → (step c).2 = c) {e : Error}
    (herror : (i.onTable name step).1 = some (.error e)) : (i.onTable name step).2 = i := by
  cases hopened : i.opened with
  | none => rw [onTable_of_none hopened]
  | some names =>
    by_cases hmem : name ∈ names
    · -- The failure is that of the step on the contents, which leaves them.
      rw [onTable_of_mem hopened hmem, Option.some.injEq] at herror
      rw [onTable_of_mem hopened hmem, hkeeps _ e herror, Function.update_eq_self]
    · rw [onTable_of_not_mem hopened hmem]

theorem tables_onTable_of_ne {other : String} (hne : other ≠ name) :
    (i.onTable name step).2.tables other = i.tables other := by
  cases hopened : i.opened with
  | none => rw [onTable_of_none hopened]
  | some names =>
    by_cases hmem : name ∈ names
    · rw [onTable_of_mem hopened hmem]
      exact Function.update_of_ne hne _ _
    · rw [onTable_of_not_mem hopened hmem]

theorem lookup_snd (f : Fault) (name : String) (key : Bytes) (c : Contents) :
    (lookup f name key c).2 = c := by
  unfold lookup
  split
  · rfl
  · split <;> rfl

theorem write_of_error {w : Write} {c : Contents} {e : Error}
    (herror : (write f w c).1 = .error e) : (write f w c).2 = c := by
  unfold write at herror ⊢
  split
  · rfl
  · rename_i hfails
    rw [if_neg hfails] at herror
    cases herror

theorem write_of_ok {w : Write} {c : Contents} {reply : Reply} (hok : (write f w c).1 = .ok reply) :
    (write f w c).2 = c.apply w := by
  unfold write at hok ⊢
  split
  · rename_i hfails
    rw [if_pos hfails] at hok
    cases hok
  · rfl

/-! ### The laws hold -/

theorem step_of_error {label : Label} {e : Error}
    (herror : (i.step root label).1 = some (.error e)) : (i.step root label).2 = i := by
  cases label with
  | create f =>
    simp only [Ideal.step] at herror ⊢
    split at herror
    · cases herror
    · split at herror
      · rfl
      · cases herror
  | openNamespace f name =>
    simp only [Ideal.step, onNames] at herror ⊢
    split at herror
    · cases herror
    · split at herror
      · rfl
      · cases herror
  | get f name key =>
    exact onTable_of_error (fun c _ _ => lookup_snd f name key c) herror
  | put f name key value => exact onTable_of_error (fun _ _ => write_of_error) herror
  | delete f name key => exact onTable_of_error (fun _ _ => write_of_error) herror
  -- The other steps never fail.
  | drop => exact absurd herror (onNames_ne_error fun _ => nofun)
  | closeNamespace name => exact absurd herror (onNames_ne_error fun _ => nofun)
  | namespaces => exact absurd herror (onNames_ne_error fun _ => nofun)
  | iterate name =>
    refine absurd herror (onNames_ne_error fun names => ?_)
    split <;> exact nofun
  | move reader m =>
    simp only [Ideal.step] at herror
    split at herror <;> cases herror
  | dropReader reader =>
    simp only [Ideal.step] at herror
    split at herror <;> cases herror

theorem tables_step_of_ne {label : Label} (hne : label.written? ≠ some name) :
    (i.step root label).2.tables name = i.tables name := by
  -- Only writes touch contents, and they touch those of their own namespace.
  cases label with
  | create f =>
    simp only [Ideal.step]
    split
    · rfl
    · split <;> rfl
  | openNamespace f other =>
    refine congrFun (tables_onNames fun names => ?_) name
    split <;> rfl
  | get f other key =>
    rw [Ideal.step, onTable_of_kept (lookup_snd f other key)]
  | put f other key value =>
    exact tables_onTable_of_ne fun heq => hne (congrArg some heq.symm)
  | delete f other key =>
    exact tables_onTable_of_ne fun heq => hne (congrArg some heq.symm)
  | drop =>
    refine congrFun (tables_onNames fun names => ?_) name
    rfl
  | closeNamespace other =>
    refine congrFun (tables_onNames fun names => ?_) name
    rfl
  | namespaces =>
    refine congrFun (tables_onNames fun names => ?_) name
    rfl
  | iterate other =>
    refine congrFun (tables_onNames fun names => ?_) name
    split <;> rfl
  | move reader m =>
    simp only [Ideal.step]
    split <;> rfl
  | dropReader reader =>
    simp only [Ideal.step]
    split <;> rfl

theorem step_of_not_mem (hopened : i.opened = some names) (hnot : name ∉ names) {label : Label}
    (hasked : label.asked? = some name) :
    i.step root label = (some (.error (.closedNamespace name)), i) := by
  cases label with
  | get f other key =>
    cases hasked
    rw [Ideal.step]
    exact onTable_of_not_mem hopened hnot
  | put f other key value =>
    cases hasked
    rw [Ideal.step]
    exact onTable_of_not_mem hopened hnot
  | delete f other key =>
    cases hasked
    rw [Ideal.step]
    exact onTable_of_not_mem hopened hnot
  -- The other steps ask for no keys.
  | _ => cases hasked

theorem step_get (hopened : i.opened = some names) (hmem : name ∈ names)
    (hfails : f.fails (.get key) = false) :
    i.step root (.get f name key) =
      (some (match (i.tables name).get? key with
        | some value => .ok (.value value)
        | none => .error (.missingKey key name)), i) := by
  simp only [Ideal.step]
  rw [onTable_of_mem hopened hmem, lookup_snd, Function.update_eq_self]
  unfold lookup
  rw [hfails, if_neg Bool.false_ne_true]
  cases (i.tables name).get? key with
  | none => rfl
  | some value => rfl

theorem lawful (root : String) (i : Ideal) : Lawful root i where
  error _ _ := step_of_error
  isolated _ _ := tables_step_of_ne
  closed names name hopened hnot label hasked := by
    rw [step_of_not_mem hopened hnot hasked]
    exact ⟨_, rfl, rfl⟩
  found names name f key value hopened hmem hfails hvalue := by
    rw [step_get hopened hmem hfails, hvalue]
  missing names name f key hopened hmem hfails hnone := by
    rw [step_get hopened hmem hfails, hnone]
    exact ⟨_, rfl, rfl⟩
  openedAgain names name f hopened hmem hvalid := by
    have houtcome : outcome root f name (decide (name ∈ names))
        (decide (name ∈ i.readers.map Prod.fst)) = .ok () := by
      simp only [outcome, hvalid, hmem, decide_true, Bool.true_or, Bool.true_eq_false, if_false,
        if_true]
    have hsame : insertName name names = names := if_pos hmem
    simp only [Ideal.step, onNames, hopened, houtcome, hsame]
    rw [← hopened]
  closedAgain names name hopened hnot := by
    have hsame : names.filter (· ≠ name) = names := by
      apply List.filter_eq_self.2
      intro other hother
      rw [decide_eq_true_eq]
      rintro rfl
      exact hnot hother
    simp only [Ideal.step, onNames, hopened, hsame]
    rw [← hopened]
  created f hok := by
    simp only [Ideal.step] at hok ⊢
    split at hok
    · cases hok
    · split at hok
      · cases hok
      · rfl

end Ideal

/-! ## Keys and their last values -/

/-- What is known of a key's value after a step, from the step and its answer. -/
def noted (name : String) (key : Bytes) (value? : Option Bytes) (step : Label × Answer) :
    Option Bytes :=
  match step.1.write?, step.2 with
  | some (other, w), some (.ok _) => if other = name ∧ w.key = key then w.value? else value?
  | _, _ => value?

/-- The value that was put last under a key of a namespace, unless it was deleted since; as far as
    steps and their answers tell. -/
def lastPut (name : String) (key : Bytes) (steps : List (Label × Answer)) : Option Bytes :=
  steps.foldl (noted name key) none

namespace Ideal

variable {name other : String} {i : Ideal} {key : Bytes}

/-- A write that succeeds sets the key that it is for, and nothing else does. -/
theorem get?_onTable_write (f : Fault) (w : Write) {label : Label}
    (hwrite : label.write? = some (other, w)) :
    ((i.onTable other (write f w)).2.tables name).get? key =
      noted name key ((i.tables name).get? key) (label, (i.onTable other (write f w)).1) := by
  unfold noted
  rw [hwrite]
  -- Without a database, with the namespace closed, and where the write fails, nothing is set and
  -- nothing noted.
  cases hopened : i.opened with
  | none => rw [onTable_of_none hopened]
  | some names =>
    by_cases hmem : other ∈ names
    · rw [onTable_of_mem hopened hmem]
      cases hanswer : (write f w (i.tables other)).1 with
      | error e =>
        simp only [write_of_error hanswer, Function.update_eq_self]
      | ok reply =>
        simp only [write_of_ok hanswer]
        by_cases hname : name = other
        · subst hname
          simp only [Function.update_self, Contents.get?_apply, true_and, eq_comm]
        · rw [if_neg fun h => hname h.1.symm, Function.update_of_ne hname]
    · rw [onTable_of_not_mem hopened hmem]

theorem get?_step (root : String) (i : Ideal) (label : Label) (name : String) (key : Bytes) :
    ((i.step root label).2.tables name).get? key =
      noted name key ((i.tables name).get? key) (label, (i.step root label).1) := by
  -- A step that writes nothing notes nothing.
  cases hwrite : label.write? with
  | none =>
    have hkept : label.written? ≠ some name := by
      rw [Label.written?, hwrite]
      exact nofun
    rw [tables_step_of_ne hkept, noted, hwrite]
  | some written =>
    obtain ⟨other, w⟩ := written
    cases label with
    | put f other' key' value =>
      cases hwrite
      rw [Ideal.step]
      exact get?_onTable_write f _ rfl
    | delete f other' key' =>
      cases hwrite
      rw [Ideal.step]
      exact get?_onTable_write f _ rfl
    | _ => cases hwrite

/-- Whatever is done to a database, a key has the value that was put last, unless it was deleted
    since. -/
theorem get?_run (root : String) (i : Ideal) (labels : List Label) (name : String) (key : Bytes) :
    ((i.run root labels).tables name).get? key =
      (labels.zip (i.answers root labels)).foldl (noted name key)
        ((i.tables name).get? key) := by
  -- By induction on the steps: what is noted of one is what its contents have after it.
  induction labels generalizing i with
  | nil => rfl
  | cons label labels ih =>
    rw [answers, List.zip_cons_cons, List.foldl_cons, ← get?_step]
    exact ih (i.step root label).2

end Ideal

end ReplicaStore.Database
