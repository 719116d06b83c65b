import ReplicaStore.Proofs.Metadata.Payload

/-! # Histories of facts

    What a metadata store is about, without files: the facts that were written, in order, and what
    they show. The current term is the last one written, the votes are those cast so far, and the
    root principal is the last one. A store asked to write a fact either refuses it, because it
    contradicts what is shown, or finds it known, or learns it.

    * `View.Extends`: how what is shown may change, and `extends_learn`: learning a new fact is
      such a change.
    * `replay_term`, `replay_votes`, `replay_root`: replaying the payloads of a history shows what
      the history shows. -/

namespace ReplicaStore.Metadata

/-! ## Facts -/

/-- A fact that a store can be asked to write. -/
inductive Fact where
  | term (number : Int64)
  | vote (v : Vote)
  | root (r : Root)
deriving DecidableEq, Repr

/-- The kinds of facts, each with a file of its own. -/
inductive Kind where
  | term
  | vote
  | root
deriving DecidableEq, Repr

def Fact.kind : Fact → Kind
  | .term _ => .term
  | .vote _ => .vote
  | .root _ => .root

def Fact.payload : Fact → Bytes
  | .term number => Payload.ofTerm number
  | .vote v => Payload.ofVote v
  | .root r => Payload.ofRoot r

/-! ## What a store shows -/

/-- What a store shows of its facts. -/
structure View where
  term : Int64
  votes : Votes
  /-- The root principal, once it is written. -/
  root : Option Root
deriving DecidableEq, Repr

namespace View

def votedFor (w : View) (term : Int64) : Option String :=
  w.votes.server? term

/-- Whether a fact is new, or known already, or contradicts what is shown. -/
def judge (w : View) : Fact → Except Error Bool
  | .term number =>
    if number < w.term then .error (.staleTerm number w.term) else .ok (number ≠ w.term)
  | .vote v =>
    match w.votedFor v.term with
    | some server => if server = v.server then .ok false else .error (.alreadyVoted server v.term)
    | none => .ok true
  | .root _ => if w.root.isSome then .error .rootPresent else .ok true

/-- What is shown after a fact is learnt. -/
def learn (w : View) : Fact → View
  | .term number => { w with term := number }
  | .vote v => { w with votes := w.votes.set v }
  | .root r => { w with root := some r }

/-- Whether writing a fact appends a record: the fact is new, and a frame can hold it. -/
def Appends (w : View) (fact : Fact) : Prop :=
  w.judge fact = .ok true ∧ fact.payload.length < Frame.payloadLimit

instance (w : View) (fact : Fact) : Decidable (w.Appends fact) :=
  decidable_of_iff
    ((w.judge fact).toOption = some true ∧ fact.payload.length < Frame.payloadLimit) (by
      unfold Appends
      cases w.judge fact <;> simp [Except.toOption])

/-- The answer to a request to write a fact. -/
def reply (w : View) (fact : Fact) : Except Error Unit := do
  if ← w.judge fact then
    if Frame.payloadLimit ≤ fact.payload.length then throw .payloadTooLarge

/-- What may change in the course of time: the term grows, a vote stays, and so does the root
    principal. -/
structure Extends (w w' : View) : Prop where
  term : w.term ≤ w'.term
  vote : ∀ term server, w.votedFor term = some server → w'.votedFor term = some server
  root : ∀ r, w.root = some r → w'.root = some r

theorem Extends.refl (w : View) : Extends w w :=
  ⟨Int64.le_refl _, fun _ _ h => h, fun _ h => h⟩

theorem Extends.trans {w₁ w₂ w₃ : View} (h₁ : Extends w₁ w₂) (h₂ : Extends w₂ w₃) :
    Extends w₁ w₃ :=
  ⟨Int64.le_trans h₁.term h₂.term, fun term server h => h₂.vote term server (h₁.vote term server h),
    fun r h => h₂.root r (h₁.root r h)⟩

theorem judge_term_eq_true_iff {w : View} {number : Int64} :
    w.judge (.term number) = .ok true ↔ w.term < number := by
  simp only [judge]
  constructor
  · intro h
    split at h
    · cases h
    · rename_i hstale
      have hne : number ≠ w.term := by simpa using h
      exact Int64.lt_of_le_of_ne (Int64.not_lt.1 hstale) (Ne.symm hne)
  · intro h
    rw [if_neg (Int64.not_lt.2 (Int64.le_of_lt h))]
    simp [Ne.symm (Int64.ne_of_lt h)]

theorem judge_vote_eq_true_iff {w : View} {v : Vote} :
    w.judge (.vote v) = .ok true ↔ w.votedFor v.term = none := by
  simp only [judge]
  cases w.votedFor v.term with
  | none => simp
  | some server =>
    simp only [reduceCtorEq, iff_false]
    split <;> simp

theorem judge_root_eq_true_iff {w : View} {r : Root} :
    w.judge (.root r) = .ok true ↔ w.root = none := by
  simp only [judge]
  cases w.root <;> simp

/-- A new fact only adds to what is shown. -/
theorem extends_learn {w : View} {fact : Fact} (h : w.judge fact = .ok true) :
    Extends w (w.learn fact) := by
  cases fact with
  | term number =>
    -- A term that is new is a greater one.
    have hlt := judge_term_eq_true_iff.1 h
    exact ⟨Int64.le_of_lt hlt, fun _ _ h => h, fun _ h => h⟩
  | vote v =>
    have hnone := judge_vote_eq_true_iff.1 h
    refine ⟨Int64.le_refl _, ?_, fun _ h => h⟩
    intro term server hserver
    -- A vote that is new is the first of its term, so it hides no older one.
    have hne : term ≠ v.term := by
      intro heq
      rw [heq, hnone] at hserver
      cases hserver
    show (w.votes.set v).server? term = some server
    rw [Votes.server?_set, if_neg hne]
    exact hserver
  | root r =>
    have hnone := judge_root_eq_true_iff.1 h
    refine ⟨Int64.le_refl _, fun _ _ h => h, ?_⟩
    intro r' hr'
    -- There was none before, so there is nothing that could be lost.
    rw [hnone] at hr'
    cases hr'

/-- A request is granted exactly if the fact is known, or is appended. -/
theorem reply_eq_ok_iff {w : View} {fact : Fact} :
    w.reply fact = .ok () ↔ w.judge fact = .ok false ∨ w.Appends fact := by
  unfold reply Appends
  cases hjudge : w.judge fact with
  | error e => simp [error_bind]
  | ok new =>
    cases new with
    | false => simp [ok_bind, pure, Except.pure]
    | true =>
      rw [ok_bind]
      -- A new fact is granted if its payload fits a frame.
      by_cases hsize : fact.payload.length < Frame.payloadLimit
      · simp [hsize, Nat.not_le.2 hsize, pure, Except.pure]
      · simp [hsize, Nat.not_lt.1 hsize, throw, throwThe, MonadExceptOf.throw]

end View

/-! ## Histories -/

/-- The facts that were written, each kind in order. -/
structure History where
  terms : List Int64
  votes : List Vote
  roots : List Root
deriving DecidableEq, Repr

namespace History

def empty : History := ⟨[], [], []⟩

def add (h : History) : Fact → History
  | .term number => { h with terms := h.terms ++ [number] }
  | .vote v => { h with votes := h.votes ++ [v] }
  | .root r => { h with roots := h.roots ++ [r] }

def view (h : History) : View :=
  ⟨h.terms.getLastD 0, h.votes.foldl (fun votes v => votes.set v) [], h.roots.getLast?⟩

/-- The history after a request to write a fact. -/
def write (h : History) (fact : Fact) : History :=
  if h.view.Appends fact then h.add fact else h

/-- The history after a crash in the middle of a request to write a fact, which has left the given
    number of bytes of the frame: the fact is in it if its frame is whole. -/
def tear (h : History) (fact : Fact) (kept : Nat) : History :=
  if kept < (Frame.encode fact.payload).length then h else h.write fact

def payloads (h : History) : Kind → List Bytes
  | .term => h.terms.map Payload.ofTerm
  | .vote => h.votes.map Payload.ofVote
  | .root => h.roots.map Payload.ofRoot

/-- Whether a frame can hold each fact. -/
def Fits (h : History) : Prop :=
  ∀ kind, ∀ p ∈ h.payloads kind, p.length < Frame.payloadLimit

theorem view_add (h : History) (fact : Fact) : (h.add fact).view = h.view.learn fact := by
  cases fact with
  | term number => simp [add, view, View.learn, List.getLastD_eq_getLast?]
  | vote v => simp [add, view, View.learn]
  | root r => simp [add, view, View.learn]

theorem payloads_add (h : History) (fact : Fact) (kind : Kind) :
    (h.add fact).payloads kind =
      if kind = fact.kind then h.payloads kind ++ [fact.payload] else h.payloads kind := by
  cases fact <;> cases kind <;> simp [add, payloads, Fact.kind, Fact.payload]

/-- The payload of the fact comes last among those of its kind. -/
theorem payloads_add_self (h : History) (fact : Fact) :
    (h.add fact).payloads fact.kind = h.payloads fact.kind ++ [fact.payload] := by
  rw [payloads_add, if_pos rfl]

theorem payloads_add_of_ne {fact : Fact} {kind : Kind} (hne : kind ≠ fact.kind) (h : History) :
    (h.add fact).payloads kind = h.payloads kind := by
  rw [payloads_add, if_neg hne]

theorem fits_empty : empty.Fits := by
  intro kind p hp
  cases kind <;> simp [empty, payloads] at hp

theorem fits_add {h : History} {fact : Fact} (hfits : h.Fits)
    (hsize : fact.payload.length < Frame.payloadLimit) : (h.add fact).Fits := by
  intro kind p hp
  rw [payloads_add] at hp
  split at hp
  · -- Of the fact's own kind there is one payload more.
    rcases List.mem_append.1 hp with hold | hnew
    · exact hfits kind p hold
    · rw [List.mem_singleton.1 hnew]
      exact hsize
  · exact hfits kind p hp

theorem extends_write (h : History) (fact : Fact) : h.view.Extends (h.write fact).view := by
  unfold write
  split
  · rename_i happends
    rw [view_add]
    exact View.extends_learn happends.1
  · exact .refl h.view

theorem extends_tear (h : History) (fact : Fact) (kept : Nat) :
    h.view.Extends (h.tear fact kept).view := by
  unfold tear
  split
  · exact .refl h.view
  · exact extends_write h fact

/-! ### Replay -/

theorem replay_term (h : History) : Replay.term (h.payloads .term) = .ok h.view.term :=
  Replay.term_eq_ok_iff.2 ⟨h.terms, Replay.map_toTerm_ofTerm h.terms, rfl⟩

theorem replay_votes {h : History} (hfits : h.Fits) :
    Replay.votes (h.payloads .vote) = .ok h.view.votes := by
  apply Replay.votes_eq_ok_iff.2
  refine ⟨h.votes, Replay.map_toVote_ofVote ?_, rfl⟩
  intro v hv
  exact hfits .vote _ (List.mem_map.2 ⟨v, hv, rfl⟩)

theorem replay_root {h : History} (hfits : h.Fits) :
    Replay.root (h.payloads .root) = .ok h.view.root := by
  apply Replay.root_eq_ok_iff.2
  have hlast : (h.payloads .root).getLast? = h.roots.getLast?.map Payload.ofRoot :=
    List.getLast?_map
  rw [hlast]
  show _ = h.roots.getLast?.map Except.ok
  -- The last payload is that of the last root principal, and fits like all of them.
  cases hroot : h.roots.getLast? with
  | none => rfl
  | some r =>
    have hmem : Payload.ofRoot r ∈ h.payloads .root :=
      List.mem_map.2 ⟨r, List.mem_of_getLast? hroot, rfl⟩
    exact congrArg some (Payload.toRoot_ofRoot (hfits .root _ hmem))

end History

end ReplicaStore.Metadata
