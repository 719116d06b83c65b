import ReplicaStore.RecordFile.Basic

/-! # Consensus metadata

    What a replica must never forget: the current term, whom it voted for in each term, and the root
    principal. Each of the three has a record file, and the values are rebuilt by replaying the
    files: the last term counts, the last vote of each term, and the last root principal.

    Terms never go back, a term has one vote, and the root principal is written once. What repeats a
    known fact is accepted and writes nothing. -/

namespace ReplicaStore

/-! ## Votes -/

/-- The servers voted for, with the terms in ascending order. -/
abbrev Votes := List Vote

namespace Votes

/-- The votes with one more, in place of an older vote of its term. -/
def set (v : Vote) : Votes → Votes
  | [] => [v]
  | w :: ws =>
    if v.term < w.term then v :: w :: ws
    else if v.term = w.term then v :: ws
    else w :: set v ws

/-- The server voted for in a term. -/
def server? (term : Int64) (votes : Votes) : Option String :=
  (votes.find? (fun v => v.term = term)).map Vote.server

theorem server?_set (v : Vote) (votes : Votes) (term : Int64) :
    server? term (set v votes) = if term = v.term then some v.server else server? term votes := by
  induction votes with
  | nil =>
    by_cases h : term = v.term
    · simp [set, server?, h]
    · simp [set, server?, h, Ne.symm h]
  | cons w ws ih =>
    simp only [set]
    split
    · by_cases h : term = v.term
      · simp [server?, h]
      · simp [server?, h, Ne.symm h]
    · split
      · rename_i hw
        by_cases h : term = v.term
        · simp [server?, h]
        · simp [server?, h, Ne.symm h, ← hw]
      · rename_i hw
        by_cases h : w.term = term
        · have hv : term ≠ v.term := fun e => hw (e ▸ h.symm)
          simp [server?, h, hv]
        · simpa [server?, h] using ih

end Votes

/-! ## Replay -/

namespace Replay

/-- The term that the payloads of the term file leave. -/
def term (payloads : List Bytes) : Except Payload.Error Int64 :=
  payloads.foldlM (fun _ payload => Payload.toTerm payload) 0

/-- The votes that the payloads of the vote file leave. -/
def votes (payloads : List Bytes) : Except Payload.Error Votes :=
  payloads.foldlM (fun votes payload => (Payload.toVote payload).map (Votes.set · votes)) []

/-- The root principal that the payloads of the root file leave; only the last one is read. -/
def root (payloads : List Bytes) : Except Payload.Error (Option Root) :=
  match payloads.getLast? with
  | none => .ok none
  | some payload => (Payload.toRoot payload).map some

end Replay

/-! ## The store -/

structure Metadata where
  /-- The directory of its files. -/
  directory : String
  termFile : RecordFile
  voteFile : RecordFile
  rootFile : RecordFile
  term : Int64
  votes : Votes
  /-- The root principal, once it is written. -/
  root : Option Root
deriving DecidableEq, Repr

namespace Metadata

def termFileName : String := "term.data"

def voteFileName : String := "vote.data"

def rootFileName : String := "root.data"

def makeDirectory (path : String) : Action Disk Unit := fun d =>
  let (r, d) := d.makeDirectories path
  (r.mapError .io, d)

/-- Opens a record file and replays its payloads. -/
def replayFile {α : Type} (path : String) (replay : List Bytes → Except Payload.Error α) :
    Action Disk (RecordFile × α) := do
  let (file, payloads) ← RecordFile.openAt path
  let a ← Action.lift ((replay payloads).mapError (.malformedPayload path))
  return (file, a)

/-- Opens the store of a directory, making what is missing. -/
def openAt (directory : String) : Action Disk Metadata := do
  makeDirectory directory
  let (termFile, term) ← replayFile (Path.join directory termFileName) Replay.term
  let (voteFile, votes) ← replayFile (Path.join directory voteFileName) Replay.votes
  let (rootFile, root) ← replayFile (Path.join directory rootFileName) Replay.root
  return ⟨directory, termFile, voteFile, rootFile, term, votes, root⟩

def votedFor (m : Metadata) (term : Int64) : Option String :=
  m.votes.server? term

def readRoot (m : Metadata) : Except Error Root :=
  match m.root with
  | some root => .ok root
  | none => .error .rootAbsent

/-- Makes a term the current one. -/
def setTerm (m : Metadata) (term : Int64) : Action Disk Metadata := do
  if term < m.term then throw (.staleTerm term m.term)
  if term = m.term then return m
  let file ← m.termFile.append (Payload.ofTerm term)
  return { m with termFile := file, term }

def setVote (m : Metadata) (v : Vote) : Action Disk Metadata := do
  match m.votedFor v.term with
  | some server => if server = v.server then return m else throw (.alreadyVoted server v.term)
  | none =>
    let file ← m.voteFile.append (Payload.ofVote v)
    return { m with voteFile := file, votes := m.votes.set v }

def setRoot (m : Metadata) (root : Root) : Action Disk Metadata := do
  if m.root.isSome then throw .rootPresent
  let file ← m.rootFile.append (Payload.ofRoot root)
  return { m with rootFile := file, root := some root }

end Metadata

end ReplicaStore
