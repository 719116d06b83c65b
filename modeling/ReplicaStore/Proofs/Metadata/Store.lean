import ReplicaStore.Proofs.Metadata.History
import ReplicaStore.Proofs.RecordFile.OnDisk
import ReplicaStore.Proofs.RecordFile.TornTail

/-! # A store and its three files

    How a history is kept on a disk. The bytes of each of the three files recover to the payloads
    of the facts of one kind; where a crash has left a torn tail, they still do. A store that is
    open shows what the history shows and holds the three files in place.

    * `Recovers`: the three files recover to a history.
    * `Serves`: an open store serves a history.
    * `perform_openAt`: opening files that recover to a history serves it, or fails and leaves
      them recovering to it; it never fails on a disk that has served a store before.
    * `perform_write`: a request to write a fact is answered as the history tells, and leaves the
      store serving the history with or without the fact.
    * `recovers_tear`: so does a crash in the middle of the request. -/

namespace ReplicaStore.Metadata

open Disk RecordFile ReplicaStore.Frame

/-! ## The three files -/

def Kind.fileName : Kind → String
  | .term => termFileName
  | .vote => voteFileName
  | .root => rootFileName

def Kind.path (directory : String) (kind : Kind) : String :=
  Path.join directory kind.fileName

def place (directory : String) (d : Disk) (kind : Kind) : Location :=
  d.resolve (kind.path directory)

def file (m : Metadata) : Kind → RecordFile
  | .term => m.termFile
  | .vote => m.voteFile
  | .root => m.rootFile

def view (m : Metadata) : View :=
  ⟨m.term, m.votes, m.root⟩

theorem Kind.isPlain_fileName (kind : Kind) : Path.IsPlain kind.fileName := by
  cases kind <;> decide

theorem Kind.fileName_inj {kind other : Kind} (h : kind.fileName = other.fileName) :
    kind = other := by
  revert h
  cases kind <;> cases other <;> decide

variable {directory : String} {d d' : Disk} {kind other : Kind} {h h' : History}

theorem place_congr (hstart : d'.workingDirectory = d.workingDirectory) (kind : Kind) :
    place directory d' kind = place directory d kind :=
  resolve_congr hstart _

/-- No two of the files stand in one place. -/
theorem place_ne (hne : other ≠ kind) : place directory d other ≠ place directory d kind := by
  intro heq
  apply hne
  apply Kind.fileName_inj
  exact resolve_join_inj d directory other.isPlain_fileName kind.isPlain_fileName heq

/-! ## Changes of one file -/

/-- A change of one of the files, which is there afterwards. -/
structure Touches (directory : String) (kind : Kind) (d d' : Disk) : Prop where
  /-- Everything else stays. -/
  but : SameBut (place directory d kind) d d'
  /-- The file could be opened before. -/
  before : d.locateFile (kind.path directory) = .ok (place directory d kind)
  /-- The file is there afterwards. -/
  after : ∃ identity data, d'.node? (place directory d kind) = some (.file identity data)

/-- Whether the file of a kind can be opened. -/
def Located (directory : String) (d : Disk) (kind : Kind) : Prop :=
  d.locateFile (kind.path directory) = .ok (place directory d kind)

theorem Kind.locateFile_eq_ok_iff {loc : Location} :
    d.locateFile (kind.path directory) = .ok loc ↔
      d.locate (kind.path directory) = .ok loc ∧ d.node? loc ≠ some .directory ∧
        ∀ c, d.node? loc ≠ some (.engine c) :=
  Disk.locateFile_eq_ok_iff (Path.endsInSlash_join directory kind.isPlain_fileName)

theorem located_of_locateFile {loc : Location}
    (hloc : d.locateFile (kind.path directory) = .ok loc) : Located directory d kind := by
  have hlocate := (Kind.locateFile_eq_ok_iff.1 hloc).1
  have hplace : loc = place directory d kind := eq_resolve_of_locate hlocate
  rw [hplace] at hloc
  exact hloc

theorem Touches.place_eq (ht : Touches directory kind d d') (other : Kind) :
    place directory d' other = place directory d other :=
  place_congr ht.but.start other

theorem Touches.keepsDirectories (ht : Touches directory kind d d') : KeepsDirectories d d' := by
  have hbefore := Kind.locateFile_eq_ok_iff.1 ht.before
  exact ht.but.keepsDirectories hbefore.2.1

/-- What could be opened can still be opened. -/
theorem Located.persist (hl : Located directory d other) (ht : Touches directory kind d d') :
    Located directory d' other := by
  obtain ⟨hlocate, hdirectory, hengine⟩ := Kind.locateFile_eq_ok_iff.1 hl
  show d'.locateFile (other.path directory) = .ok (place directory d' other)
  rw [ht.place_eq other]
  apply Kind.locateFile_eq_ok_iff.2
  refine ⟨locate_of_keeps ht.keepsDirectories hlocate, ?_⟩
  -- In the place that was touched a file stands now; in every other the same as before.
  by_cases hkind : other = kind
  · obtain ⟨identity, data, hnode⟩ := ht.after
    rw [hkind, hnode]
    simp
  · rw [ht.but.node _ (place_ne hkind)]
    exact ⟨hdirectory, hengine⟩

/-! ## Disks that keep a history -/

/-- Whether the directory and the files can be opened, with no directory missing. -/
structure Usable (directory : String) (d : Disk) : Prop where
  made : d.makeDirectories directory = (.ok (), d)
  located : ∀ kind, Located directory d kind

theorem Usable.persist (hu : Usable directory d) (ht : Touches directory kind d d') :
    Usable directory d' where
  made := by
    apply makeDirectories_of_keeps (d := d)
    · rw [hu.made]
    · rw [hu.made]
      exact ht.keepsDirectories
  located other := (hu.located other).persist ht

/-- Whether the bytes of the files recover to the payloads of a history. -/
structure Recovers (directory : String) (d : Disk) (h : History) : Prop where
  fits : h.Fits
  recover : ∀ kind, recover (d.bytesAt (place directory d kind)) =
    .ok (h.payloads kind, encodeAll (h.payloads kind))

/-- Touching one file replaces the payloads of its kind by those it recovers to. -/
theorem Recovers.touch (hr : Recovers directory d h) (ht : Touches directory kind d d')
    (hfits : h'.Fits)
    (hkind : RecordFile.recover (d'.bytesAt (place directory d kind)) =
      .ok (h'.payloads kind, encodeAll (h'.payloads kind)))
    (hothers : ∀ other, other ≠ kind → h'.payloads other = h.payloads other) :
    Recovers directory d' h' where
  fits := hfits
  recover other := by
    rw [ht.place_eq other]
    -- Only one file has other bytes; the other two stand somewhere else.
    by_cases hother : other = kind
    · rw [hother]
      exact hkind
    · rw [bytesAt_congr (ht.but.node _ (place_ne hother)), hothers other hother]
      exact hr.recover other

/-- Making directories touches none of the files. -/
theorem Recovers.of_onlyDirectoriesAdded (hr : Recovers directory d h)
    (hadded : OnlyDirectoriesAdded d d') : Recovers directory d' h where
  fits := hr.fits
  recover kind := by
    rw [place_congr hadded.start, hadded.bytesAt]
    exact hr.recover kind

/-- Whether an open file is the file of a kind, with the records of a history and nothing else. -/
structure Keeps (directory : String) (d : Disk) (h : History) (kind : Kind) (f : RecordFile) :
    Prop where
  location : f.location = place directory d kind
  inPlace : f.InPlace d (encodeAll (h.payloads kind))

theorem Keeps.node? {f : RecordFile} (hk : Keeps directory d h kind f) :
    d.node? (place directory d kind) =
      some (.file f.identity (encodeAll (h.payloads kind))) := by
  rw [← hk.location]
  exact hk.inPlace.node

/-- A file that is not touched keeps its records. -/
theorem Keeps.persist {f : RecordFile} (hk : Keeps directory d h other f)
    (ht : Touches directory kind d d') (hne : other ≠ kind) : Keeps directory d' h other f where
  location := by
    rw [ht.place_eq other]
    exact hk.location
  inPlace := by
    apply hk.inPlace.of_node?
    rw [hk.location]
    exact ht.but.node _ (place_ne hne)

/-- Whether an open store serves a history: it shows what the history shows, and its files keep
    the records, where they could be opened again. -/
structure Serves (directory : String) (m : Metadata) (d : Disk) (h : History) : Prop where
  fits : h.Fits
  usable : Usable directory d
  shows : m.view = h.view
  keeps : ∀ kind, Keeps directory d h kind (m.file kind)

/-- The files of an open store hold whole records and nothing else. -/
theorem Serves.bytesAt {m : Metadata} (hs : Serves directory m d h) (kind : Kind) :
    d.bytesAt (place directory d kind) = encodeAll (h.payloads kind) :=
  bytesAt_of_file (hs.keeps kind).node?

theorem Serves.recovers {m : Metadata} (hs : Serves directory m d h) :
    Recovers directory d h where
  fits := hs.fits
  recover kind := by
    rw [hs.bytesAt kind]
    exact recover_encodeAll (hs.fits kind)

/-! ## Opening -/

/-- A file whose bytes recover is opened over the bytes that stay, and its payloads are replayed. -/
theorem perform_replayFile_of_recover {α : Type} {payloads : List Bytes} {kept : Bytes}
    (hl : Located directory d kind)
    (hrecover : recover (d.bytesAt (place directory d kind)) = .ok (payloads, kept))
    (replay : List Bytes → Except Payload.Error α) :
    ∃ f d', (replayFile (kind.path directory) replay).perform d =
        (((replay payloads).mapError (.malformedPayload (kind.path directory))).map (f, ·), d') ∧
      f.location = place directory d kind ∧ f.InPlace d' kept ∧ Touches directory kind d d' := by
  obtain ⟨f, d', hopen, -, hlocation, hplace, hbut⟩ := perform_openAt_of_recover hl hrecover
  have hnode := hplace.node
  rw [hlocation] at hnode
  refine ⟨f, d', ?_, hlocation, hplace, hbut, hl, _, _, hnode⟩
  unfold replayFile
  rw [Action.perform_bind_of_ok hopen]
  dsimp only
  cases replay payloads <;> rfl

/-- A file that can be opened is replayed: it keeps its records, and what they tell is what the
    history tells. -/
theorem perform_replayFile {α : Type} {replay : List Bytes → Except Payload.Error α} {a : α}
    (hr : Recovers directory d h) (hl : Located directory d kind)
    (hreplay : replay (h.payloads kind) = .ok a) :
    ∃ f d', (replayFile (kind.path directory) replay).perform d = (.ok (f, a), d') ∧
      Keeps directory d' h kind f ∧ Touches directory kind d d' ∧ Recovers directory d' h := by
  obtain ⟨f, d', hperform, hlocation, hplace, ht⟩ :=
    perform_replayFile_of_recover hl (hr.recover kind) replay
  rw [hreplay] at hperform
  have hkeeps : Keeps directory d' h kind f :=
    ⟨hlocation.trans (ht.place_eq kind).symm, hplace⟩
  have hnode := hkeeps.node?
  rw [ht.place_eq kind] at hnode
  refine ⟨f, d', hperform, hkeeps, ht, ?_⟩
  apply hr.touch ht hr.fits
  · rw [bytesAt_of_file hnode]
    exact recover_encodeAll (hr.fits kind)
  · intro other _
    rfl

/-- A file that cannot be opened is reported, and nothing is done. -/
theorem perform_replayFile_of_not_located {α : Type} (hl : ¬ Located directory d kind)
    (replay : List Bytes → Except Payload.Error α) :
    ∃ e, (replayFile (kind.path directory) replay).perform d = (.error e, d) := by
  cases hloc : d.locateFile (kind.path directory) with
  | ok loc => exact absurd (located_of_locateFile hloc) hl
  | error e =>
    refine ⟨.cannotOpen (kind.path directory) e, ?_⟩
    unfold replayFile
    exact Action.perform_bind_of_error (perform_openAt_of_error hloc)

/-- Opening the three files, once the directory is there. -/
def openFiles (directory : String) : Action Disk Metadata := do
  let (termFile, term) ← replayFile (Kind.term.path directory) Replay.term
  let (voteFile, votes) ← replayFile (Kind.vote.path directory) Replay.votes
  let (rootFile, root) ← replayFile (Kind.root.path directory) Replay.root
  return ⟨directory, termFile, voteFile, rootFile, term, votes, root⟩

theorem openAt_eq (directory : String) :
    openAt directory = (makeDirectory directory >>= fun _ => openFiles directory) := rfl

theorem perform_makeDirectory (d : Disk) (directory : String) :
    (makeDirectory directory).perform d =
      ((d.makeDirectories directory).1.mapError Error.io, (d.makeDirectories directory).2) := rfl

theorem perform_openFiles (hr : Recovers directory d h)
    (hmade : ∀ d', KeepsDirectories d d' → d'.makeDirectories directory = (.ok (), d')) :
    (∃ m d', (openFiles directory).perform d = (.ok m, d') ∧ Serves directory m d' h) ∨
      ∃ e d', (openFiles directory).perform d = (.error e, d') ∧ Recovers directory d' h ∧
        ∃ kind, ¬ Located directory d kind := by
  unfold openFiles
  -- The files are opened one after the other, and each that is opened touches only itself: what is
  -- known of the other two has to be carried along.
  by_cases hl₁ : Located directory d .term
  case neg =>
    obtain ⟨e, herror⟩ := perform_replayFile_of_not_located hl₁ Replay.term
    exact .inr ⟨e, d, Action.perform_bind_of_error herror, hr, .term, hl₁⟩
  obtain ⟨f₁, d₁, hopen₁, hk₁, ht₁, hr₁⟩ := perform_replayFile hr hl₁ h.replay_term
  rw [Action.perform_bind_of_ok hopen₁]
  by_cases hl₂ : Located directory d₁ .vote
  case neg =>
    obtain ⟨e, herror⟩ := perform_replayFile_of_not_located hl₂ Replay.votes
    refine .inr ⟨e, d₁, Action.perform_bind_of_error herror, hr₁, .vote, ?_⟩
    -- Had it been there at first, opening the earlier files would not have taken it away.
    intro hl
    exact hl₂ (hl.persist ht₁)
  obtain ⟨f₂, d₂, hopen₂, hk₂, ht₂, hr₂⟩ :=
    perform_replayFile hr₁ hl₂ (History.replay_votes hr.fits)
  rw [Action.perform_bind_of_ok hopen₂]
  by_cases hl₃ : Located directory d₂ .root
  case neg =>
    obtain ⟨e, herror⟩ := perform_replayFile_of_not_located hl₃ Replay.root
    refine .inr ⟨e, d₂, Action.perform_bind_of_error herror, hr₂, .root, ?_⟩
    intro hl
    exact hl₃ ((hl.persist ht₁).persist ht₂)
  obtain ⟨f₃, d₃, hopen₃, hk₃, ht₃, hr₃⟩ :=
    perform_replayFile hr₂ hl₃ (History.replay_root hr.fits)
  rw [Action.perform_bind_of_ok hopen₃]
  refine .inl ⟨_, d₃, rfl, hr.fits, ⟨?_, ?_⟩, rfl, ?_⟩
  · apply hmade
    exact ht₁.keepsDirectories.trans (ht₂.keepsDirectories.trans ht₃.keepsDirectories)
  · intro kind
    cases kind with
    | term => exact ((hl₁.persist ht₁).persist ht₂).persist ht₃
    | vote => exact (hl₂.persist ht₂).persist ht₃
    | root => exact hl₃.persist ht₃
  · intro kind
    cases kind with
    | term => exact (hk₁.persist ht₂ (by decide)).persist ht₃ (by decide)
    | vote => exact hk₂.persist ht₃ (by decide)
    | root => exact hk₃

/-- Opening serves the history that the files recover to. It fails only where no store has been
    open before, and leaves the files recovering to the history even then. -/
theorem perform_openAt (hr : Recovers directory d h) :
    (∃ m d', (openAt directory).perform d = (.ok m, d') ∧ Serves directory m d' h) ∨
      ∃ e d', (openAt directory).perform d = (.error e, d') ∧ Recovers directory d' h ∧
        ¬ Usable directory d := by
  have hr₀ := hr.of_onlyDirectoriesAdded (onlyDirectoriesAdded_makeDirectories d directory)
  have hmake := perform_makeDirectory d directory
  rw [openAt_eq]
  -- Making the directory comes first, and changes none of the files whether it succeeds or not.
  cases hmade : (d.makeDirectories directory).1 with
  | error e =>
    rw [hmade] at hmake
    refine .inr ⟨_, _, Action.perform_bind_of_error hmake, hr₀, ?_⟩
    intro hu
    rw [hu.made] at hmade
    cases hmade
  | ok u =>
    rw [hmade] at hmake
    rw [Action.perform_bind_of_ok hmake]
    rcases perform_openFiles hr₀ (fun d' hkeeps => makeDirectories_of_keeps hmade hkeeps) with
      hserves | ⟨e, d', hopen, hr', kind, hl⟩
    · exact .inl hserves
    · refine .inr ⟨e, d', hopen, hr', ?_⟩
      intro hu
      rw [hu.made] at hl
      exact hl (hu.located kind)

/-! ## Writing -/

/-- A request to write a fact. -/
def write (m : Metadata) : Fact → Action Disk Metadata
  | .term number => m.setTerm number
  | .vote v => m.setVote v
  | .root r => m.setRoot r

/-- The store after a fact is learnt, with the file it was appended to. -/
def learnt (m : Metadata) (fact : Fact) (f : RecordFile) : Metadata :=
  match fact with
  | .term number => { m with termFile := f, term := number }
  | .vote v => { m with voteFile := f, votes := m.votes.set v }
  | .root r => { m with rootFile := f, root := some r }

theorem view_learnt (m : Metadata) (fact : Fact) (f : RecordFile) :
    (m.learnt fact f).view = m.view.learn fact := by
  cases fact <;> rfl

theorem file_learnt (m : Metadata) (fact : Fact) (f : RecordFile) (kind : Kind) :
    (m.learnt fact f).file kind = if kind = fact.kind then f else m.file kind := by
  cases fact <;> cases kind <;> rfl

/-- The three requests are one: judge the fact, and append it if it is new. -/
theorem write_eq (m : Metadata) (fact : Fact) :
    m.write fact =
      match m.view.judge fact with
      | .error e => throw e
      | .ok false => return m
      | .ok true => do
        let f ← (m.file fact.kind).append fact.payload
        return m.learnt fact f := by
  -- The three are written out in their own ways; here they turn out to be one.
  cases fact with
  | term number =>
    show m.setTerm number = _
    unfold setTerm View.judge
    by_cases hstale : number < m.term
    · simp [view, hstale]
    · by_cases hsame : number = m.term
      · simp [view, hsame]
      · simp [view, hstale, hsame]
        rfl
  | vote v =>
    show m.setVote v = _
    have hvoted : m.view.votedFor v.term = m.votedFor v.term := rfl
    simp only [setVote, View.judge, hvoted]
    cases m.votedFor v.term with
    | none => rfl
    | some server =>
      by_cases hsame : server = v.server
      · simp [hsame]
      · simp [hsame]
  | root r =>
    show m.setRoot r = _
    have hroot : m.view.root = m.root := rfl
    simp only [setRoot, View.judge, hroot]
    cases m.root with
    | none => rfl
    | some old => rfl

/-- A request that appends nothing is answered, and that is all: the fact is refused, or known, or
    too large. -/
theorem perform_write_of_not_appends {m : Metadata} {fact : Fact}
    (happends : ¬ m.view.Appends fact) (d : Disk) :
    (m.write fact).perform d = ((m.view.reply fact).map fun _ => m, d) := by
  have hwrite := write_eq m fact
  unfold View.reply
  cases hjudge : m.view.judge fact with
  | error e =>
    rw [hjudge] at hwrite
    rw [hwrite, error_bind]
    rfl
  | ok new =>
    rw [hjudge] at hwrite
    rw [hwrite, ok_bind]
    cases new with
    | false => rfl
    | true =>
      -- The fact is new, so it is its size that is in the way.
      have hsize : ¬ fact.payload.length < payloadLimit := fun hsize => happends ⟨hjudge, hsize⟩
      have happend := perform_append_of_large (f := m.file fact.kind) (d := d) hsize
      simp only [if_true, if_pos (Nat.not_lt.1 hsize)]
      exact Action.perform_bind_of_error happend

/-- What a request that appends leaves: the store serves the history with the fact. -/
theorem Serves.append {m : Metadata} {fact : Fact} (hs : Serves directory m d h)
    (happends : h.view.Appends fact) :
    ∃ m' d', (m.write fact).perform d = (.ok m', d') ∧ Serves directory m' d' (h.add fact) := by
  have hk := hs.keeps fact.kind
  obtain ⟨f, d', happend, -, hlocation, hplace, hbut⟩ := perform_append hk.inPlace happends.2
  rw [hk.location] at hlocation hbut
  have hpayloads := h.payloads_add_self fact
  -- The new frame stands behind those of the facts of its kind, which makes it one of them.
  have hplace' : f.InPlace d' (encodeAll ((h.add fact).payloads fact.kind)) := by
    rw [hpayloads, encodeAll_append]
    simpa using hplace
  have hnode := hplace'.node
  rw [hlocation] at hnode
  have ht : Touches directory fact.kind d d' := ⟨hbut, hs.usable.located fact.kind, _, _, hnode⟩
  refine ⟨m.learnt fact f, d', ?_, History.fits_add hs.fits happends.2,
    hs.usable.persist ht, ?_, ?_⟩
  · rw [write_eq, hs.shows, happends.1]
    exact Action.perform_bind_of_ok happend
  · rw [view_learnt, History.view_add, hs.shows]
  · intro kind
    rw [file_learnt]
    split
    · rename_i hkind
      rw [hkind]
      exact ⟨hlocation.trans (ht.place_eq fact.kind).symm, hplace'⟩
    · rename_i hne
      have hkept := (hs.keeps kind).persist ht hne
      exact ⟨hkept.location, by rw [History.payloads_add_of_ne hne]; exact hkept.inPlace⟩

/-- A request is answered as the history tells; where it is not granted, nothing is done, and else
    the store serves the history after it. -/
theorem Serves.write {m : Metadata} (hs : Serves directory m d h) (fact : Fact) :
    match h.view.reply fact with
    | .error e => (m.write fact).perform d = (.error e, d) ∧ h.write fact = h
    | .ok () => ∃ m' d', (m.write fact).perform d = (.ok m', d') ∧
        Serves directory m' d' (h.write fact) := by
  by_cases happends : h.view.Appends fact
  · have hreply := View.reply_eq_ok_iff.2 (.inr happends)
    rw [hreply]
    simp only [History.write, if_pos happends]
    exact hs.append happends
  · have hsame : h.write fact = h := if_neg happends
    have hperform := perform_write_of_not_appends (by rw [hs.shows]; exact happends) d
    rw [hs.shows] at hperform
    rw [hsame]
    cases hreply : h.view.reply fact with
    | error e =>
      rw [hreply] at hperform
      exact ⟨hperform, rfl⟩
    | ok u =>
      rw [hreply] at hperform
      exact ⟨m, d, hperform, hs⟩

/-! ## Crashing -/

/-- The disk after a crash in the middle of a request: of the frame that the request appends, a
    beginning has come to the end of its file. -/
def tear (m : Metadata) (fact : Fact) (kept : Nat) (d : Disk) : Disk :=
  let f := m.file fact.kind
  if m.view.Appends fact then
    d.setData f.location (d.bytesAt f.location ++ (encode fact.payload).take kept)
  else d

theorem tear_eq_self {m : Metadata} {fact : Fact} (happends : ¬ m.view.Appends fact) (kept : Nat)
    (d : Disk) : m.tear fact kept d = d :=
  if_neg happends

theorem Serves.touches_tear {m : Metadata} {fact : Fact} (hs : Serves directory m d h)
    (happends : h.view.Appends fact) (kept : Nat) :
    Touches directory fact.kind d (m.tear fact kept d) ∧
      (m.tear fact kept d).bytesAt (place directory d fact.kind) =
        encodeAll (h.payloads fact.kind) ++ (encode fact.payload).take kept := by
  have hk := hs.keeps fact.kind
  have htear : m.tear fact kept d =
      d.setData (place directory d fact.kind)
        (encodeAll (h.payloads fact.kind) ++ (encode fact.payload).take kept) := by
    unfold tear
    rw [if_pos (by rw [hs.shows]; exact happends), hk.location, hs.bytesAt fact.kind]
  have hnode := node?_setData_of_file hk.node?
    (encodeAll (h.payloads fact.kind) ++ (encode fact.payload).take kept)
  rw [← htear] at hnode
  refine ⟨⟨?_, hs.usable.located fact.kind, _, _, hnode⟩, bytesAt_of_file hnode⟩
  rw [htear]
  exact sameBut_setData d _ _

/-- A crash leaves the files recovering to the history, with the fact if its frame is whole and
    without it if not, and the disk stays usable. -/
theorem Serves.tear {m : Metadata} (hs : Serves directory m d h) (fact : Fact) (kept : Nat) :
    Recovers directory (m.tear fact kept d) (h.tear fact kept) ∧
      Usable directory (m.tear fact kept d) := by
  by_cases happends : h.view.Appends fact
  case neg =>
    have hsame : h.tear fact kept = h := by
      unfold History.tear History.write
      rw [if_neg happends, ite_self]
    rw [tear_eq_self (by rw [hs.shows]; exact happends) kept d, hsame]
    exact ⟨hs.recovers, hs.usable⟩
  obtain ⟨ht, hbytes⟩ := hs.touches_tear happends kept
  refine ⟨?_, hs.usable.persist ht⟩
  have hfits := History.fits_add hs.fits happends.2
  have hpayloads := h.payloads_add_self fact
  have hlong : ∀ p ∈ h.payloads fact.kind ++ [fact.payload], p.length < payloadLimit := by
    rw [← hpayloads]
    exact hfits fact.kind
  -- The law of torn tails, for the one file that was touched.
  have hrecover := recover_append_take hlong kept
  rw [← hbytes] at hrecover
  unfold History.tear History.write
  rw [if_pos happends]
  by_cases hkept : kept < (encode fact.payload).length
  · simp only [if_pos hkept] at hrecover ⊢
    exact hs.recovers.touch ht hs.fits hrecover (fun other _ => rfl)
  · simp only [if_neg hkept] at hrecover ⊢
    rw [← hpayloads] at hrecover
    exact hs.recovers.touch ht hfits hrecover fun other hne => History.payloads_add_of_ne hne h

end ReplicaStore.Metadata
