import ReplicaStore.Proofs.RecordFile.StrayBytes

/-! # Tails that a crash leaves

    A crash in the middle of an append leaves, behind the frames that are whole, the beginning of
    the frame that was on its way, or zeros where the file had grown and the bytes had not come.
    Wherever such a tail ends, in the magic number, the length, the payload or the checksum, opening
    the file takes off the tail and nothing else, and what is appended next stands right behind the
    frames.

    * `Leftover`: the tails that a crash leaves.
    * `Leftover.read_eq`: they are torn.
    * `openAt_cuts_leftover`: what is returned and kept, and what an append makes of it. -/

namespace ReplicaStore

namespace Frame

/-! ## Tails -/

/-- What a crash leaves behind the frames of a file. -/
inductive Leftover : Bytes → Prop
  /-- A proper beginning of one more frame. -/
  | beginning {payload tail : Bytes} (hfits : payload.length < payloadLimit)
      (hbegins : tail <+: encode payload) (hproper : tail ≠ encode payload) : Leftover tail
  /-- Zeros, and be it none. -/
  | zeros (n : Nat) : Leftover (List.replicate n 0)

/-- Zeros are torn: too few of them are no header, and more of them are told from damage by having
    no other byte among them. -/
theorem read_replicate_zero (n : Nat) : Frame.read (List.replicate n 0) = .torn := by
  unfold Frame.read
  by_cases hshort : n < headerSize
  · rw [if_pos (by rw [List.length_replicate]; exact hshort)]
  · have hmagic : (List.replicate n (0 : UInt8)).take 4 ≠ magic := by
      have hle : 4 ≤ n := by
        simp only [headerSize] at hshort
        omega
      rw [List.take_replicate, Nat.min_eq_left hle]
      decide
    have hzeros : (List.replicate n (0 : UInt8)).all (· = 0) = true := by
      rw [List.all_replicate]
      simp
    rw [if_neg (by rw [List.length_replicate]; exact hshort), if_pos hmagic, if_pos hzeros]

/-- What a crash leaves is torn. -/
theorem Leftover.read_eq {tail : Bytes} (h : Leftover tail) : Frame.read tail = .torn := by
  cases h with
  | @beginning payload _ hfits hbegins hproper =>
    have hkept : tail.length < (encode payload).length := by
      apply Nat.lt_of_le_of_ne hbegins.length_le
      intro hlength
      exact hproper (hbegins.eq_of_length hlength)
    rw [List.prefix_iff_eq_take.1 hbegins]
    exact read_take_encode hfits hkept
  | zeros n => exact read_replicate_zero n

end Frame

namespace RecordFile

open ReplicaStore.Frame

variable {d : Disk} {path : String} {loc : Location} {identity : Nat} {ps : List Bytes}
  {tail : Bytes}

/-! ## Opening and appending -/

/-- A file in place that holds frames and nothing else is opened again as it is. -/
theorem InPlace.perform_openAt {f : RecordFile} (hplace : f.InPlace d (encodeAll ps))
    (hloc : d.locateFile path = .ok f.location) (hpath : f.path = path)
    (hfits : ∀ p ∈ ps, p.length < payloadLimit) :
    (openAt path).perform d = (.ok (f, ps), d.setData f.location (encodeAll ps)) := by
  rw [perform_openAt_of_file hloc hplace.node, recover_encodeAll hfits]
  simp only [← hplace.length, ← hpath]

/-- A file of frames behind which a crash has left a tail: opening it returns the payloads of the
    frames and leaves exactly the frames, and nothing else on the disk changes. A payload that is
    appended then, and that a frame can hold, is there when the file is opened again, behind the
    others; one that is too large for a frame is refused, and changes nothing. -/
theorem openAt_cuts_leftover (hloc : d.locateFile path = .ok loc)
    (hfits : ∀ p ∈ ps, p.length < payloadLimit) (htail : Leftover tail)
    (hfile : d.node? loc = some (.file identity (encodeAll ps ++ tail))) :
    ∃ f d', (openAt path).perform d = (.ok (f, ps), d') ∧ f.location = loc ∧
      d'.read path = .ok (encodeAll ps) ∧ Disk.SameBut loc d d' ∧
      ∀ p,
        (p.length < payloadLimit →
          ∃ f' d'', (f.append p).perform d' = (.ok f', d'') ∧
            d''.read path = .ok (encodeAll (ps ++ [p])) ∧ Disk.SameBut loc d' d'' ∧
            (openAt path).perform d'' = (.ok (f', ps ++ [p]), d'')) ∧
        (¬ p.length < payloadLimit →
          (f.append p).perform d' = (.error .payloadTooLarge, d')) := by
  have hopen := perform_openAt_of_file hloc hfile
  rw [recover_append_of_torn hfits htail.read_eq] at hopen
  refine ⟨_, _, hopen, rfl, ?_, Disk.sameBut_setData d loc _, ?_⟩
  · obtain ⟨hlocated, -, -, hplace⟩ := opened_of_perform hopen
    exact Disk.read_of_locateFile hlocated hplace.node
  · intro p
    refine ⟨fun hsize => ?_, perform_append_of_large⟩
    have hs := sound_of_opened hopen
    have happend := hs.perform_append p
    rw [if_pos hsize, List.append_nil] at happend
    obtain ⟨hs', hplace, hagain⟩ := hs.append happend
    rw [List.append_nil] at hplace hagain
    refine ⟨_, _, happend, Disk.read_of_locateFile hs'.located hplace.node,
      Disk.sameBut_setData _ loc _, ?_⟩
    rw [hplace.perform_openAt hs'.located hs'.path_eq hs'.fits, hagain]

/-- Two records, behind which a frame ends inside its length, and the same two with more zeros than
    a header has: either tail is cut off, and a record that is appended follows the two. -/
theorem openAt_cuts_half_length_and_zeros :
    let ps : List Bytes := [[1, 2], []]
    let half := magic ++ [3, 0]
    let zeros := List.replicate 13 (0 : UInt8)
    (∀ p ∈ ps, p.length < payloadLimit) ∧ Leftover half ∧ Leftover zeros ∧
      ∀ tail ∈ [half, zeros], ∃ f d',
        (openAt "/records").perform (soleFile (encodeAll ps ++ tail)) = (.ok (f, ps), d') ∧
          d'.read "/records" = .ok (encodeAll ps) ∧
          ∃ f' d'', (f.append [7]).perform d' = (.ok f', d'') ∧
            (openAt "/records").perform d'' = (.ok (f', [[1, 2], [], [7]]), d'') := by
  intro ps half zeros
  have hfits : ∀ p ∈ ps, p.length < payloadLimit := by decide
  have hhalf : Leftover half := .beginning (show [4, 5, 6].length < payloadLimit by decide)
    (by decide) (by decide)
  have hzeros : Leftover zeros := .zeros 13
  refine ⟨hfits, hhalf, hzeros, ?_⟩
  intro tail hmem
  have htail : Leftover tail := by
    rcases List.mem_cons.1 hmem with rfl | hlast
    · exact hhalf
    · rw [List.mem_singleton.1 hlast]
      exact hzeros
  obtain ⟨f, d', hopen, -, hread, -, happends⟩ :=
    openAt_cuts_leftover (locateFile_soleFile _) hfits htail (node?_soleFile _)
  obtain ⟨f', d'', happend, -, -, hagain⟩ := (happends [7]).1 (by decide)
  exact ⟨f, d', hopen, hread, f', d'', happend, hagain⟩

end RecordFile

end ReplicaStore
