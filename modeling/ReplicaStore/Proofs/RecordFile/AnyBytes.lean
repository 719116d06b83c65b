import Mathlib.Logic.Relation
import ReplicaStore.Proofs.RecordFile.LengthDamage

/-! # Files of any bytes

    What a record file is opened to if nothing is known of its bytes. Reading goes on, frame after
    frame, as long as a frame stands at the offset that was reached; it ends on every byte string,
    and what it has passed then is exactly the longest list of frames that the bytes begin with.

    * `Round`, `rounds_reach_intact`, `no_round_at_intact`: reading as a loop over offsets, and
      where it ends.
    * `Begins`, `begins_scan`, `prefix_scan_of_begins`: the frames that bytes begin with, and the
      longest list of them.
    * `openAt_outcome`: opening reports damage and leaves the disk alone, or leaves exactly those
      frames. -/

namespace ReplicaStore

namespace Frame

/-! ## Frame after frame -/

/-- To prove something of all byte strings, it may be assumed of what lies behind a frame. -/
theorem induction_on_frames {motive : Bytes → Prop}
    (stop : ∀ bs, (∀ payload, Frame.read bs ≠ .frame payload) → motive bs)
    (frame : ∀ bs payload, Frame.read bs = .frame payload →
      motive (bs.drop (payload.length + overhead)) → motive bs) (bs : Bytes) : motive bs := by
  induction hn : bs.length using Nat.strongRecOn generalizing bs with
  | _ n ih =>
    cases hread : Frame.read bs with
    | torn => exact stop bs (fun payload h => by simp [hread] at h)
    | damaged damage => exact stop bs (fun payload h => by simp [hread] at h)
    | frame payload =>
      -- A frame has at least its header and its checksum, so less lies behind it.
      have hsplit := congrArg List.length (eq_encode_append_of_read hread).2
      rw [List.length_append, length_encode] at hsplit
      have hshorter : (bs.drop (payload.length + overhead)).length < n := by
        simp only [overhead] at hsplit ⊢
        omega
      exact frame bs payload hread (ih _ hshorter _ rfl)

/-- Where no frame stands, nothing is read. -/
theorem scan_of_no_frame {bs : Bytes} (h : ∀ payload, Frame.read bs ≠ .frame payload) :
    (scan bs).payloads = [] ∧ (scan bs).intact = 0 := by
  cases bs with
  | nil => simp [scan]
  | cons b bs =>
    cases hread : Frame.read (b :: bs) with
    | torn => simp [scan, hread]
    | damaged damage => simp [scan, hread]
    | frame payload => exact absurd hread (h payload)

/-- A round of reading: over the frame at an offset, to the offset behind it. -/
def Round (bs : Bytes) (offset next : Nat) : Prop :=
  ∃ payload, Frame.read (bs.drop offset) = .frame payload ∧
    next = offset + (payload.length + overhead)

theorem Round.shift {bs : Bytes} {n offset next : Nat} (h : Round (bs.drop n) offset next) :
    Round bs (n + offset) (n + next) := by
  obtain ⟨payload, hread, rfl⟩ := h
  rw [List.drop_drop] at hread
  exact ⟨payload, hread, by omega⟩

/-- Reading goes, round by round, to the end of the intact frames. -/
theorem rounds_reach_intact (bs : Bytes) : Relation.ReflTransGen (Round bs) 0 (scan bs).intact := by
  induction bs using induction_on_frames with
  | stop bs hstop =>
    rw [(scan_of_no_frame hstop).2]
  | frame bs payload hread ih =>
    have hfirst : Round bs 0 (payload.length + overhead) := ⟨payload, hread, by omega⟩
    rw [scan_of_read hread]
    apply Relation.ReflTransGen.head hfirst
    -- The later rounds are those behind the frame, each one frame further on.
    exact ih.lift (payload.length + overhead + ·) (fun _ _ => Round.shift)

/-- Behind the intact frames stands no further one, so there reading ends. -/
theorem no_round_at_intact (bs : Bytes) (next : Nat) : ¬ Round bs (scan bs).intact next := by
  suffices h : ∀ payload, Frame.read (bs.drop (scan bs).intact) ≠ .frame payload by
    rintro ⟨payload, hread, -⟩
    exact h payload hread
  induction bs using induction_on_frames with
  | stop bs hstop =>
    rw [(scan_of_no_frame hstop).2]
    exact hstop
  | frame bs payload hread ih =>
    rw [scan_of_read hread]
    simp only
    rw [← List.drop_drop]
    exact ih

/-! ## The longest list of frames -/

/-- Whether bytes begin with the frames of payloads. -/
structure Begins (payloads : List Bytes) (bs : Bytes) : Prop where
  /-- Each payload has a frame. -/
  fit : ∀ p ∈ payloads, p.length < payloadLimit
  /-- The frames are the first bytes. -/
  frames : encodeAll payloads <+: bs

theorem fit_scan (bs : Bytes) : ∀ p ∈ (scan bs).payloads, p.length < payloadLimit := by
  induction bs using induction_on_frames with
  | stop bs hstop =>
    rw [(scan_of_no_frame hstop).1]
    intro p hp
    cases hp
  | frame bs payload hread ih =>
    rw [scan_of_read hread]
    intro p hp
    rcases List.mem_cons.1 hp with rfl | htail
    · exact (eq_encode_append_of_read hread).1
    · exact ih p htail

/-- A byte string begins with the frames that are read from it. -/
theorem begins_scan (bs : Bytes) : Begins (scan bs).payloads bs := by
  refine ⟨fit_scan bs, ?_⟩
  rw [← take_intact_scan]
  exact List.take_prefix _ bs

/-- Whatever frames a byte string begins with are read from it. -/
theorem prefix_scan_of_begins {payloads : List Bytes} {bs : Bytes} (h : Begins payloads bs) :
    payloads <+: (scan bs).payloads := by
  obtain ⟨rest, rfl⟩ := h.frames
  rw [scan_encodeAll_append h.fit]
  exact List.prefix_append payloads _

end Frame

/-! ## Opening -/

namespace RecordFile

open ReplicaStore.Frame

/-- A file recovers to nothing but damage, or to the frames that are read from it. -/
theorem recover_eq (bs : Bytes) :
    (∃ damage offset, recover bs = .error (damage, offset)) ∨
      recover bs = .ok ((scan bs).payloads, encodeAll (scan bs).payloads) := by
  unfold recover
  simp only
  split
  · exact .inl ⟨_, _, rfl⟩
  · rw [take_intact_scan]
    exact .inr rfl

/-- Bytes that recover are not damaged; what is read from them are the frames that they recover
    to. -/
theorem scan_of_recover {bs kept : Bytes} {payloads : List Bytes}
    (h : recover bs = .ok (payloads, kept)) :
    ¬ EndsInDamage bs ∧ (scan bs).payloads = payloads ∧ kept = encodeAll payloads := by
  rcases recover_eq bs with ⟨damage, offset, herror⟩ | hrecover
  · rw [h] at herror
    cases herror
  · rw [h] at hrecover
    obtain ⟨rfl, rfl⟩ := Prod.mk.inj (Except.ok.inj hrecover)
    refine ⟨?_, rfl, rfl⟩
    intro hends
    obtain ⟨damage, offset, herror⟩ := recover_eq_error_iff.2 hends
    rw [h] at herror
    cases herror

/-- A record file of any bytes: opening it reports data loss and leaves the disk as it is, or it
    returns the longest list of payloads whose frames the bytes begin with, leaves exactly these
    frames in the file, and finds the same when it is done again. Reading ends on all bytes. -/
theorem openAt_outcome {d : Disk} {path : String} {loc : Location} {identity : Nat} {c : Bytes}
    (hloc : d.locateFile path = .ok loc) (hfile : d.node? loc = some (.file identity c)) :
    ((∃ e, (openAt path).perform d = (.error e, d) ∧ e.kind = .dataLoss) ∨
      ∃ f rs d', (openAt path).perform d = (.ok (f, rs), d') ∧ f.location = loc ∧
        f.InPlace d' (encodeAll rs) ∧ Disk.SameBut loc d d' ∧
        Begins rs c ∧ (∀ qs, Begins qs c → qs <+: rs) ∧
        (openAt path).perform d' = (.ok (f, rs), d')) ∧
      Relation.ReflTransGen (Round c) 0 (scan c).intact ∧
      ∀ next, ¬ Round c (scan c).intact next := by
  refine ⟨?_, rounds_reach_intact c, no_round_at_intact c⟩
  have hopen := perform_openAt_of_file hloc hfile
  rcases recover_eq c with ⟨damage, offset, hdamaged⟩ | hrecover
  · rw [hdamaged] at hopen
    exact .inl ⟨_, hopen, rfl⟩
  · right
    have hbegins := begins_scan c
    have hsame := Disk.sameBut_setData d loc (encodeAll (scan c).payloads)
    have hnode := Disk.node?_setData_of_file hfile (encodeAll (scan c).payloads)
    rw [hrecover] at hopen
    refine ⟨_, _, _, hopen, rfl, ⟨hnode, rfl⟩, hsame, hbegins, fun _ => prefix_scan_of_begins, ?_⟩
    -- What is left in the file are frames, and these recover to themselves.
    have hagain := perform_openAt_of_file (Disk.locateFile_of_sameBut hloc hsame hnode) hnode
    rw [recover_encodeAll hbegins.fit] at hagain
    simp only [Disk.setData_setData hfile] at hagain
    exact hagain

/-- A file of one frame and the magic number of another: the frame stays, and the rest is cut
    off. -/
theorem openAt_outcome_of_torn :
    let c := encode [1] ++ magic
    (soleFile c).locateFile "/records" = .ok ["records"] ∧
      (soleFile c).node? ["records"] = some (.file 0 c) ∧
      ∃ f d', (openAt "/records").perform (soleFile c) = (.ok (f, [[1]]), d') ∧
        f.InPlace d' (encodeAll [[1]]) ∧ (openAt "/records").perform d' = (.ok (f, [[1]]), d') := by
  intro c
  have htorn : Frame.read magic = .torn := by decide
  have hrecover : recover c = .ok ([[1]], encodeAll [[1]]) := by
    have hfit : ∀ p ∈ ([[1]] : List Bytes), p.length < payloadLimit := by decide
    simpa using recover_append_of_torn hfit htorn
  have hopen := perform_openAt_of_file (locateFile_soleFile c) (node?_soleFile c)
  rw [hrecover] at hopen
  refine ⟨locateFile_soleFile c, node?_soleFile c, ?_⟩
  rcases (openAt_outcome (locateFile_soleFile c) (node?_soleFile c)).1 with
    ⟨e, he, -⟩ | ⟨f, rs, d', hok, -, hplace, -, -, -, hagain⟩
  · rw [hopen] at he
    cases he
  · have hrs : rs = [[1]] := by
      rw [hopen] at hok
      cases hok
      rfl
    subst hrs
    exact ⟨f, d', hok, hplace, hagain⟩

end RecordFile

end ReplicaStore
