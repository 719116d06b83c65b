import ReplicaStore.Proofs.Metadata.Store
import ReplicaStore.Proofs.Metadata.Votes
import ReplicaStore.Proofs.RecordFile.AnyBytes

/-! # Replay of any three files

    What a metadata store is opened to if nothing is known of the bytes of its files. Each file is
    read up to its first bytes that are no frame; a torn tail is cut off and damage is reported.
    The terms and the votes are then read one after the other and have to be there all of them; of
    the root file only the last payload is read.

    * `retains_openAt`: whatever becomes of opening, and on every disk, the frames that a file
      begins with stay in it.
    * `replayFile_outcome`, `openFiles_outcome`: what is replayed from one file, and from the three
      one after the other.
    * `openAt_replays`: when opening succeeds, what the store shows then, and how it fails else. -/

namespace ReplicaStore

open ReplicaStore.Frame RecordFile

namespace Metadata

open Disk

variable {directory : String} {d d' : Disk} {kind other : Kind}

/-! ## What stays in the files -/

/-- The payloads whose frames the file of a kind begins with. -/
def intact (directory : String) (d : Disk) (kind : Kind) : List Bytes :=
  (scan (d.bytesAt (place directory d kind))).payloads

/-- Whether bytes are left as they were, or cut to the frames that they begin with. -/
def Settles (bs bs' : Bytes) : Prop :=
  bs' = bs ∨ bs' = encodeAll (scan bs).payloads

/-- From the frames that bytes begin with, the same frames are read. -/
theorem scan_encodeAll_scan (bs : Bytes) :
    (scan (encodeAll (scan bs).payloads)).payloads = (scan bs).payloads :=
  (scan_of_recover (recover_encodeAll (fit_scan bs))).2.1

theorem Settles.begins {bs bs' : Bytes} (h : Settles bs bs') : Begins (scan bs).payloads bs' := by
  -- A file that is left alone begins with its frames, and what was cut to them does, too.
  rcases h with rfl | rfl
  · exact begins_scan bs'
  · exact ⟨fit_scan bs, List.prefix_refl _⟩

theorem Settles.trans {bs₁ bs₂ bs₃ : Bytes} (h₁ : Settles bs₁ bs₂) (h₂ : Settles bs₂ bs₃) :
    Settles bs₁ bs₃ := by
  rcases h₁ with rfl | rfl
  · exact h₂
  · -- What was cut to frames begins with these frames and no others.
    unfold Settles at h₂
    rw [scan_encodeAll_scan, or_self] at h₂
    exact .inr h₂

/-- Whether a change leaves each of the three files as it was, or cuts it to the frames that it
    begins with. -/
structure Retains (directory : String) (d d' : Disk) : Prop where
  /-- Relative paths start in the same place. -/
  start : d'.workingDirectory = d.workingDirectory
  settles : ∀ kind,
    Settles (d.bytesAt (place directory d kind)) (d'.bytesAt (place directory d kind))

theorem Retains.refl (directory : String) (d : Disk) : Retains directory d d :=
  ⟨rfl, fun _ => .inl rfl⟩

theorem Retains.trans {d₁ d₂ d₃ : Disk} (h₁ : Retains directory d₁ d₂)
    (h₂ : Retains directory d₂ d₃) : Retains directory d₁ d₃ := by
  refine ⟨h₂.start.trans h₁.start, ?_⟩
  intro kind
  have hlater := h₂.settles kind
  -- The second change finds the files in the same places, as the working directory stays.
  rw [place_congr h₁.start] at hlater
  exact (h₁.settles kind).trans hlater

theorem Touches.retains (ht : Touches directory kind d d')
    (hsettles : Settles (d.bytesAt (place directory d kind))
      (d'.bytesAt (place directory d kind))) : Retains directory d d' := by
  refine ⟨ht.but.start, ?_⟩
  intro other
  -- The files of the other kinds stand in other places.
  by_cases hkind : other = kind
  · rw [hkind]
    exact hsettles
  · exact .inl (bytesAt_congr (ht.but.node _ (place_ne hkind)))

theorem retains_bind {α β : Type} {a : Action Disk α} {f : α → Action Disk β}
    (ha : Retains directory d (a.perform d).2)
    (hf : ∀ x d₁, Retains directory d₁ ((f x).perform d₁).2) :
    Retains directory d ((a >>= f).perform d).2 :=
  Action.rel_perform_bind (R := Retains directory) Retains.trans ha hf

theorem retains_makeDirectory (directory : String) (d : Disk) :
    Retains directory d ((makeDirectory directory).perform d).2 := by
  have hadded := onlyDirectoriesAdded_makeDirectories d directory
  exact ⟨hadded.start, fun kind => .inl (hadded.bytesAt _)⟩

/-! ## One file -/

/-- Whether the file of a kind is not damaged, and its payloads replay to something. -/
structure Yields {α : Type} (directory : String) (d : Disk) (kind : Kind)
    (replay : List Bytes → Except Payload.Error α) (a : α) : Prop where
  undamaged : ¬ EndsInDamage (d.bytesAt (place directory d kind))
  replay : replay (intact directory d kind) = .ok a

/-- What a file yields is up to its bytes. -/
theorem Yields.of_bytesAt {α : Type} {replay : List Bytes → Except Payload.Error α} {a : α}
    (h : Yields directory d kind replay a)
    (hbytes : d'.bytesAt (place directory d' kind) = d.bytesAt (place directory d kind)) :
    Yields directory d' kind replay a := by
  refine ⟨?_, ?_⟩
  · rw [hbytes]
    exact h.undamaged
  · unfold intact
    rw [hbytes]
    exact h.replay

/-- Damage is found in files that exist only. -/
theorem node?_of_endsInDamage {loc : Location} (h : EndsInDamage (d.bytesAt loc)) :
    ∃ identity, d.node? loc = some (.file identity (d.bytesAt loc)) := by
  unfold Disk.bytesAt at h ⊢
  split at h
  · rename_i identity data hnode
    exact ⟨identity, hnode⟩
  · obtain ⟨damage, hdamage⟩ := h
    -- A file that is missing has no bytes, and these end in no damage.
    simp [scan] at hdamage

/-- A file that can be opened is replayed, or data loss is reported; which of the two, is up to its
    bytes. -/
theorem replayFile_outcome {α : Type} (hl : Located directory d kind)
    (replay : List Bytes → Except Payload.Error α) :
    ∃ d', Touches directory kind d d' ∧ Retains directory d d' ∧
      ((∃ f a, (replayFile (kind.path directory) replay).perform d = (.ok (f, a), d') ∧
          Yields directory d kind replay a) ∨
        ∃ e, (replayFile (kind.path directory) replay).perform d = (.error e, d') ∧
          e.kind = .dataLoss ∧ ∀ a, ¬ Yields directory d kind replay a) := by
  rcases recover_eq (d.bytesAt (place directory d kind)) with hdamaged | hrecover
  · -- A damaged file is there, and stays as it is.
    have hends := recover_eq_error_iff.1 hdamaged
    obtain ⟨damage, offset, herror⟩ := hdamaged
    obtain ⟨identity, hnode⟩ := node?_of_endsInDamage hends
    have hopen := perform_openAt_of_file hl hnode
    rw [herror] at hopen
    refine ⟨d, ⟨.refl _ d, hl, _, _, hnode⟩, .refl directory d, .inr
      ⟨.damagedFile (kind.path directory) offset damage, ?_, rfl, ?_⟩⟩
    · exact Action.perform_bind_of_error hopen
    · intro a hyields
      exact hyields.undamaged hends
  · obtain ⟨f, d', hperform, hlocation, hplace, ht⟩ :=
      perform_replayFile_of_recover hl hrecover replay
    have hnode := hplace.node
    rw [hlocation] at hnode
    refine ⟨d', ht, ht.retains (.inr (bytesAt_of_file hnode)), ?_⟩
    -- The file is open now; it remains to read its payloads.
    cases hreplay : replay (scan (d.bytesAt (place directory d kind))).payloads with
    | ok a =>
      rw [hreplay] at hperform
      exact .inl ⟨f, a, hperform, (scan_of_recover hrecover).1, hreplay⟩
    | error fault =>
      rw [hreplay] at hperform
      refine .inr ⟨.malformedPayload (kind.path directory) fault, hperform, rfl, ?_⟩
      intro a hyields
      have hread := hyields.replay
      rw [intact, hreplay] at hread
      cases hread

theorem retains_replayFile {α : Type} (directory : String) (d : Disk) (kind : Kind)
    (replay : List Bytes → Except Payload.Error α) :
    Retains directory d ((replayFile (kind.path directory) replay).perform d).2 := by
  -- A file that cannot be located is not opened, so nothing is done to it.
  by_cases hl : Located directory d kind
  · obtain ⟨d', -, hretains, ⟨f, a, hopen, -⟩ | ⟨e, hopen, -⟩⟩ := replayFile_outcome hl replay
    · rw [hopen]
      exact hretains
    · rw [hopen]
      exact hretains
  · obtain ⟨e, hopen⟩ := perform_replayFile_of_not_located hl replay
    rw [hopen]
    exact .refl directory d

/-- Opening a store takes nothing from a file but what stands behind the frames that it begins
    with; this holds on every disk, and whether opening succeeds or not. -/
theorem retains_openAt (directory : String) (d : Disk) :
    Retains directory d ((openAt directory).perform d).2 := by
  rw [openAt_eq]
  unfold openFiles
  apply retains_bind (retains_makeDirectory directory d)
  intro _ d₁
  apply retains_bind (retains_replayFile directory d₁ .term _)
  intro _ d₂
  apply retains_bind (retains_replayFile directory d₂ .vote _)
  intro _ d₃
  apply retains_bind (retains_replayFile directory d₃ .root _)
  intro _ d₄
  exact .refl directory d₄

/-! ## Three files -/

/-- Whether the three files yield what a store shows. -/
structure Replays (directory : String) (d : Disk) (w : View) : Prop where
  term : Yields directory d .term Replay.term w.term
  votes : Yields directory d .vote Replay.votes w.votes
  root : Yields directory d .root Replay.root w.root

theorem Touches.yields_iff {α : Type} {replay : List Bytes → Except Payload.Error α} {a : α}
    (ht : Touches directory kind d d') (hne : other ≠ kind) :
    Yields directory d' other replay a ↔ Yields directory d other replay a := by
  have hbytes : d'.bytesAt (place directory d' other) = d.bytesAt (place directory d other) := by
    rw [ht.place_eq other]
    exact bytesAt_congr (ht.but.node _ (place_ne hne))
  exact ⟨fun h => h.of_bytesAt hbytes.symm, fun h => h.of_bytesAt hbytes⟩

/-- Three files that can be opened are replayed one after the other, or data loss is reported by
    the first one that yields nothing. -/
theorem openFiles_outcome (hl : ∀ kind, Located directory d kind) :
    (∃ m d', (openFiles directory).perform d = (.ok m, d') ∧ Replays directory d m.view) ∨
      ∃ e d', (openFiles directory).perform d = (.error e, d') ∧ e.kind = .dataLoss ∧
        ∀ w, ¬ Replays directory d w := by
  unfold openFiles
  -- A file that was opened has left the later ones as they were, so what they yield then is what
  -- they yield at first.
  obtain ⟨d₁, ht₁, -, ⟨f₁, term, hopen₁, hterm⟩ | ⟨e, herror, hkind, hnone⟩⟩ :=
    replayFile_outcome (hl .term) Replay.term
  case inr =>
    exact .inr ⟨e, d₁, Action.perform_bind_of_error herror, hkind, fun w hw => hnone _ hw.term⟩
  rw [Action.perform_bind_of_ok hopen₁]
  obtain ⟨d₂, ht₂, -, ⟨f₂, votes, hopen₂, hvotes⟩ | ⟨e, herror, hkind, hnone⟩⟩ :=
    replayFile_outcome ((hl .vote).persist ht₁) Replay.votes
  case inr =>
    refine .inr ⟨e, d₂, Action.perform_bind_of_error herror, hkind, ?_⟩
    intro w hw
    exact hnone _ ((ht₁.yields_iff (by decide)).2 hw.votes)
  rw [Action.perform_bind_of_ok hopen₂]
  obtain ⟨d₃, ht₃, -, ⟨f₃, root, hopen₃, hroot⟩ | ⟨e, herror, hkind, hnone⟩⟩ :=
    replayFile_outcome (((hl .root).persist ht₁).persist ht₂) Replay.root
  case inr =>
    refine .inr ⟨e, d₃, Action.perform_bind_of_error herror, hkind, ?_⟩
    intro w hw
    have hroot₁ := (ht₁.yields_iff (by decide)).2 hw.root
    exact hnone _ ((ht₂.yields_iff (by decide)).2 hroot₁)
  rw [Action.perform_bind_of_ok hopen₃]
  have hroot₁ := (ht₂.yields_iff (by decide)).1 hroot
  exact .inl ⟨_, d₃, rfl, hterm, (ht₁.yields_iff (by decide)).1 hvotes,
    (ht₁.yields_iff (by decide)).1 hroot₁⟩

/-- Whether the three files are not damaged and tell these terms, these votes and this root
    principal: every payload of the first two reads, and the last payload of the third. -/
structure Tells (directory : String) (d : Disk) (terms : List Int64) (votes : List Vote)
    (root : Option Root) : Prop where
  undamaged : ∀ kind, ¬ EndsInDamage (d.bytesAt (place directory d kind))
  terms : (intact directory d .term).map Payload.toTerm = terms.map .ok
  votes : (intact directory d .vote).map Payload.toVote = votes.map .ok
  root : (intact directory d .root).getLast?.map Payload.toRoot = root.map .ok

theorem Tells.replays {terms : List Int64} {votes : List Vote} {root : Option Root}
    (h : Tells directory d terms votes root) :
    Replays directory d ⟨terms.getLastD 0, Votes.ofList votes, root⟩ where
  term := ⟨h.undamaged .term, Replay.term_eq_ok_iff.2 ⟨terms, h.terms, rfl⟩⟩
  votes := ⟨h.undamaged .vote, Replay.votes_eq_ok_iff.2 ⟨votes, h.votes, rfl⟩⟩
  root := ⟨h.undamaged .root, Replay.root_eq_ok_iff.2 h.root⟩

theorem Replays.tells {w : View} (h : Replays directory d w) :
    ∃ terms votes root, Tells directory d terms votes root := by
  obtain ⟨terms, hterms, -⟩ := Replay.term_eq_ok_iff.1 h.term.replay
  obtain ⟨votes, hvotes, -⟩ := Replay.votes_eq_ok_iff.1 h.votes.replay
  refine ⟨terms, votes, w.root, ?_, hterms, hvotes, Replay.root_eq_ok_iff.1 h.root.replay⟩
  intro kind
  cases kind with
  | term => exact h.term.undamaged
  | vote => exact h.votes.undamaged
  | root => exact h.root.undamaged

/-- Files yield one view only. -/
theorem Replays.unique {w w' : View} (h : Replays directory d w) (h' : Replays directory d w') :
    w = w' := by
  have hterm := h.term.replay.symm.trans h'.term.replay
  have hvotes := h.votes.replay.symm.trans h'.votes.replay
  have hroot := h.root.replay.symm.trans h'.root.replay
  obtain ⟨term, votes, root⟩ := w
  simp only [Except.ok.injEq] at hterm hvotes hroot
  rw [hterm, hvotes, hroot]

/-- What the files yield is not changed by making directories. -/
theorem replays_iff_of_onlyDirectoriesAdded {w : View} (hadded : OnlyDirectoriesAdded d d') :
    Replays directory d' w ↔ Replays directory d w := by
  have hbytes (kind : Kind) :
      d'.bytesAt (place directory d' kind) = d.bytesAt (place directory d kind) := by
    rw [place_congr hadded.start, hadded.bytesAt]
  constructor
  · intro h
    exact ⟨h.term.of_bytesAt (hbytes .term).symm, h.votes.of_bytesAt (hbytes .vote).symm,
      h.root.of_bytesAt (hbytes .root).symm⟩
  · intro h
    exact ⟨h.term.of_bytesAt (hbytes .term), h.votes.of_bytesAt (hbytes .vote),
      h.root.of_bytesAt (hbytes .root)⟩

/-- Where the directory can be made and the files can be opened, opening shows what the files
    yield, or reports data loss. -/
theorem openAt_cases (hmade : (d.makeDirectories directory).1 = .ok ())
    (hlocated : ∀ kind, Located directory (d.makeDirectories directory).2 kind) :
    (∃ m d', (openAt directory).perform d = (.ok m, d') ∧ Replays directory d m.view) ∨
      ∃ e d', (openAt directory).perform d = (.error e, d') ∧ e.kind = .dataLoss ∧
        ∀ w, ¬ Replays directory d w := by
  -- What making the directory adds is in none of the files.
  have hsame (w : View) :
      Replays directory (d.makeDirectories directory).2 w ↔ Replays directory d w :=
    replays_iff_of_onlyDirectoriesAdded (onlyDirectoriesAdded_makeDirectories d directory)
  have hmake := perform_makeDirectory d directory
  rw [hmade] at hmake
  rw [openAt_eq, Action.perform_bind_of_ok hmake]
  rcases openFiles_outcome hlocated with ⟨m, d', hopen, hw⟩ | ⟨e, d', hopen, hkind, hnone⟩
  · exact .inl ⟨m, d', hopen, (hsame _).1 hw⟩
  · exact .inr ⟨e, d', hopen, hkind, fun w hw => hnone w ((hsame w).2 hw)⟩

/-- Where the directory can be made and the files can be opened, whatever their bytes are: a store
    is opened exactly if no file is damaged, every term and every vote reads, and so does the last
    root principal. It shows the last term, the last root principal, and of each term the last
    vote. Else data loss is reported. In either case every file still begins with the frames that
    it has begun with. -/
theorem openAt_replays {directory : String} {d : Disk}
    (hmade : (d.makeDirectories directory).1 = .ok ())
    (hlocated : ∀ kind, Located directory (d.makeDirectories directory).2 kind) :
    let opening := (openAt directory).perform d
    ((∃ m, opening.1 = .ok m) ↔ ∃ terms votes root, Tells directory d terms votes root) ∧
      (∀ m terms votes root, opening.1 = .ok m → Tells directory d terms votes root →
        m.term = terms.getLastD 0 ∧ m.root = root ∧
        (∀ term server, m.votedFor term = some server ↔ Votes.LastVote votes ⟨term, server⟩) ∧
        m.votes.Ascending ∧ ∀ v, v ∈ m.votes ↔ Votes.LastVote votes v) ∧
      (∀ e, opening.1 = .error e → e.kind = .dataLoss) ∧
      ∀ kind, Begins (intact directory d kind)
        (opening.2.bytesAt (place directory d kind)) := by
  intro opening
  have hkept (kind : Kind) : Begins (intact directory d kind)
      (opening.2.bytesAt (place directory d kind)) :=
    ((retains_openAt directory d).settles kind).begins
  rcases openAt_cases hmade hlocated with ⟨m, d', hopen, hw⟩ | ⟨e, d', hopen, hkind, hnone⟩
  · have hok : opening.1 = .ok m := congrArg Prod.fst hopen
    refine ⟨⟨fun _ => hw.tells, fun _ => ⟨m, hok⟩⟩, ?_, ?_, hkept⟩
    · intro m' terms votes root hm' htells
      rw [hok] at hm'
      obtain rfl := Except.ok.inj hm'
      -- What the files tell is what they yield, and this is what the store shows.
      obtain ⟨hterm, hvotes, hroot⟩ := View.mk.inj (hw.unique htells.replays)
      refine ⟨hterm, hroot, ?_, ?_, ?_⟩
      · intro term server
        rw [votedFor, hvotes]
        exact Votes.server?_ofList_iff votes term server
      · rw [hvotes]
        exact Votes.ascending_ofList votes
      · intro v
        rw [hvotes]
        exact Votes.mem_ofList_iff votes v
    · intro e he
      rw [hok] at he
      cases he
  · have herror : opening.1 = .error e := congrArg Prod.fst hopen
    refine ⟨⟨?_, ?_⟩, ?_, ?_, hkept⟩
    · rintro ⟨m, hm⟩
      rw [herror] at hm
      cases hm
    · rintro ⟨terms, votes, root, htells⟩
      exact absurd htells.replays (hnone _)
    · intro m terms votes root hm
      rw [herror] at hm
      cases hm
    · intro e' he'
      rw [herror] at he'
      obtain rfl := Except.error.inj he'
      exact hkind

/-- A disk whose directory `data` holds the three files. -/
def threeFiles (bytes : Kind → Bytes) : Disk :=
  let d := (Disk.empty ["data"]).put ["data", termFileName] (.file 0 (bytes .term))
  let d := d.put ["data", voteFileName] (.file 1 (bytes .vote))
  d.put ["data", rootFileName] (.file 2 (bytes .root))

theorem bytesAt_threeFiles (bytes : Kind → Bytes) (kind : Kind) :
    (threeFiles bytes).bytesAt (place "/data" (threeFiles bytes) kind) = bytes kind := by
  cases kind <;> rfl

/-- Three files with a torn tail each, two votes of one term, and a root principal behind a payload
    that is none: the last term, the last vote of each term and the root principal are shown. -/
theorem openAt_replays_two_votes :
    let votes : List Vote := [⟨5, "a"⟩, ⟨3, "c"⟩, ⟨5, "b"⟩]
    let root : Root := ⟨"root", "secret"⟩
    let payloads : Kind → List Bytes
      | .term => [3, 5].map Payload.ofTerm
      | .vote => votes.map Payload.ofVote
      | .root => [[7], Payload.ofRoot root]
    let d := threeFiles fun kind => encodeAll (payloads kind) ++ magic
    (d.makeDirectories "/data").1 = .ok () ∧
      (∀ kind, Located "/data" (d.makeDirectories "/data").2 kind) ∧
      Tells "/data" d [3, 5] votes (some root) ∧
      ∃ m, ((openAt "/data").perform d).1 = .ok m ∧ m.term = 5 ∧ m.root = some root ∧
        m.votedFor 5 = some "b" ∧ m.votedFor 3 = some "c" := by
  intro votes root payloads d
  have hmade : (d.makeDirectories "/data").1 = .ok () := rfl
  have hlocated (kind : Kind) : Located "/data" (d.makeDirectories "/data").2 kind := by
    cases kind <;> rfl
  have hfits (kind : Kind) : ∀ p ∈ payloads kind, p.length < payloadLimit := by
    cases kind <;> decide
  -- The tail of each file is the start of a frame, so the frames in front are all there is.
  have hwhole (kind : Kind) : ¬ EndsInDamage (d.bytesAt (place "/data" d kind)) ∧
      intact "/data" d kind = payloads kind := by
    unfold intact
    rw [bytesAt_threeFiles]
    have htorn : Frame.read magic = .torn := by decide
    have hscan := scan_of_recover (recover_append_of_torn (hfits kind) htorn)
    exact ⟨hscan.1, hscan.2.1⟩
  have htells : Tells "/data" d [3, 5] votes (some root) := by
    refine ⟨fun kind => (hwhole kind).1, ?_, ?_, ?_⟩
    · rw [(hwhole .term).2]
      exact Replay.map_toTerm_ofTerm [3, 5]
    · rw [(hwhole .vote).2]
      apply Replay.map_toVote_ofVote
      intro v hv
      exact hfits .vote _ (List.mem_map_of_mem hv)
    · rw [(hwhole .root).2]
      exact congrArg some (Payload.toRoot_ofRoot (hfits .root _ (by simp [payloads])))
  obtain ⟨hiff, hshows, -⟩ := openAt_replays hmade hlocated
  obtain ⟨m, hm⟩ := hiff.2 ⟨_, _, _, htells⟩
  obtain ⟨hterm, hroot, hvoted, -⟩ := hshows m _ _ _ hm htells
  refine ⟨hmade, hlocated, htells, m, hm, hterm, hroot, ?_, ?_⟩
  · exact (hvoted 5 "b").2 ⟨[⟨5, "a"⟩, ⟨3, "c"⟩], [], rfl, by simp⟩
  · exact (hvoted 3 "c").2 ⟨[⟨5, "a"⟩], [⟨5, "b"⟩], rfl, by decide⟩

end Metadata

end ReplicaStore
