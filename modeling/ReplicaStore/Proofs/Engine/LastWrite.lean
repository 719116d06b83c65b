import ReplicaStore.Namespace.Database
import ReplicaStore.Proofs.Engine.Opening
import ReplicaStore.Proofs.Engine.Walk

/-! # What a batch leaves

    A batch may name a key often, and of all that it does to a key only the last counts: a key that
    is set last has its last value, one that is removed last is absent, and one that is not named is
    as it was. Nothing else is a map after the batch.

    * `Leaves`: what one map is after a batch on another.
    * `leaves_iff`: it is the one that the writes make when they are applied in order.
    * `perform_write_leaves`: writing batches to a live engine. -/

namespace ReplicaStore

/-! ## The last write of a key -/

/-- Whether a map is what a batch leaves of another one. -/
structure Leaves (batch : Batch) (c c' : Contents) : Prop where
  /-- A key whose last write sets it has the value of that write. -/
  put : ∀ before after key value, batch = before ++ .put key value :: after →
    (∀ w ∈ after, w.key ≠ key) → c'.get? key = some value
  /-- A key whose last write removes it is absent. -/
  delete : ∀ before after key, batch = before ++ .delete key :: after →
    (∀ w ∈ after, w.key ≠ key) → c'.get? key = none
  /-- A key that is not named is as it was. -/
  others : ∀ key, (∀ w ∈ batch, w.key ≠ key) → c'.get? key = c.get? key

variable {batch : Batch} {c c' c'' : Contents}

theorem Leaves.last (h : Leaves batch c c') {before after : Batch} {w : Write}
    (hbatch : batch = before ++ w :: after) (hafter : ∀ w' ∈ after, w'.key ≠ w.key) :
    c'.get? w.key = w.value? := by
  cases w with
  | put key value => exact h.put before after key value hbatch hafter
  | delete key => exact h.delete before after key hbatch hafter

/-- A key that is named is named by a last write. -/
theorem exists_last_write {key : Bytes} (h : ∃ w ∈ batch, w.key = key) :
    ∃ before w after, batch = before ++ w :: after ∧ w.key = key ∧ ∀ w' ∈ after, w'.key ≠ key := by
  induction batch with
  | nil =>
    obtain ⟨w, hmem, -⟩ := h
    cases hmem
  | cons first batch ih =>
    -- The first write is the last one of its key, unless the key is written later again.
    by_cases hlater : ∃ w ∈ batch, w.key = key
    · obtain ⟨before, w, after, hbatch, hkey, hafter⟩ := ih hlater
      exact ⟨first :: before, w, after, by rw [hbatch, List.cons_append], hkey, hafter⟩
    · have hafter : ∀ w ∈ batch, w.key ≠ key := fun w hmem hkey => hlater ⟨w, hmem, hkey⟩
      obtain ⟨w, hmem, hkey⟩ := h
      rcases List.mem_cons.1 hmem with heq | htail
      · exact ⟨[], first, batch, rfl, heq ▸ hkey, hafter⟩
      · exact absurd hkey (hafter w htail)

/-- A batch leaves one map only. -/
theorem Leaves.unique (h : Leaves batch c c') (h' : Leaves batch c c'') : c' = c'' := by
  apply Contents.ext_get?
  intro key
  -- A key is named by a last write, which tells its value, or by none, and then it keeps its value.
  by_cases hnamed : ∃ w ∈ batch, w.key = key
  · obtain ⟨before, w, after, hbatch, rfl, hafter⟩ := exists_last_write hnamed
    rw [h.last hbatch hafter, h'.last hbatch hafter]
  · have hnot : ∀ w ∈ batch, w.key ≠ key := fun w hmem hkey => hnamed ⟨w, hmem, hkey⟩
    rw [h.others key hnot, h'.others key hnot]

/-- What is written behind the last write of a key does not change it again. -/
theorem Contents.get?_applyBatch_last (c : Contents) (before after : Batch) (w : Write)
    (hafter : ∀ w' ∈ after, w'.key ≠ w.key) :
    (c.applyBatch (before ++ w :: after)).get? w.key = w.value? := by
  rw [applyBatch_append, applyBatch_cons, get?_applyBatch_of_not_named hafter, get?_apply,
    if_pos rfl]

theorem leaves_applyBatch (batch : Batch) (c : Contents) : Leaves batch c (c.applyBatch batch) := by
  constructor
  · intro before after key value hbatch hafter
    rw [hbatch]
    exact c.get?_applyBatch_last before after (.put key value) hafter
  · intro before after key hbatch hafter
    rw [hbatch]
    exact c.get?_applyBatch_last before after (.delete key) hafter
  · intro key hnot
    exact Contents.get?_applyBatch_of_not_named hnot c

/-- The map that a batch leaves is the one that its writes make in their order. -/
theorem leaves_iff : Leaves batch c c' ↔ c' = c.applyBatch batch := by
  constructor
  · intro h
    exact h.unique (leaves_applyBatch batch c)
  · intro heq
    rw [heq]
    exact leaves_applyBatch batch c

/-! ## Live engines -/

namespace Host

variable {h : Host} {id : EngineId} {e : LiveEngine}

theorem contents_setContents (hlive : h.isLive id = true) (c : Contents) :
    (h.setContents id c).contents id = c := by
  obtain ⟨e, he⟩ := Option.isSome_iff_exists.1 hlive
  have he' : (h.setContentsAt e.location c).engine? id = some e := he
  simp only [setContents, he, contents, he']
  simp only [contentsAt, setContentsAt, Disk.node?_put, if_true]

/-- Of two maps that an engine is given, it keeps the second. -/
theorem setContents_setContents (h : Host) (id : EngineId) (c c' : Contents) :
    (h.setContents id c).setContents id c' = h.setContents id c' := by
  cases he : h.engine? id with
  | none => simp only [setContents, he]
  | some e =>
    have he' : (h.setContentsAt e.location c).engine? id = some e := he
    simp only [setContents, he, he']
    simp only [setContentsAt, Disk.put_put]

theorem perform_write_of_passes {f : Fault} {batch : Batch} (h : Host) (id : EngineId)
    (hpasses : f.fails (.write batch) = false) :
    (Host.write f id batch).perform h =
      (.ok (), h.setContents id ((h.contents id).applyBatch batch)) := by
  rw [perform_write, hpasses, if_neg Bool.false_ne_true]

/-- A batch behind another one does what the two do as one. -/
theorem perform_write_write (hlive : h.isLive id = true) (b₁ b₂ : Batch) :
    (do Host.write .none id b₁; Host.write .none id b₂ : Action Host Unit).perform h =
      (Host.write .none id (b₁ ++ b₂)).perform h := by
  -- The second batch finds what the first one has left, because the engine is live.
  rw [Action.perform_bind_of_ok (perform_write_of_passes h id rfl), perform_write_of_passes _ _ rfl,
    perform_write_of_passes _ _ rfl, contents_setContents hlive, setContents_setContents,
    Contents.applyBatch_append]

/-- A namespace that is open on an engine is written to by batches of one write. -/
theorem perform_single_write {db : Database} {name : String} (hid : db.engineOf? name = some id)
    (f : Fault) (key value : Bytes) (h : Host) :
    (Database.put f db name key value).perform h = (Host.write f id [.put key value]).perform h ∧
      (Database.delete f db name key).perform h = (Host.write f id [.delete key]).perform h := by
  have hengine : (Action.lift (db.engineOf name) : Action Host EngineId).perform h =
      (.ok id, h) := by
    unfold Database.engineOf
    rw [hid]
    rfl
  constructor
  · exact Action.perform_bind_of_ok hengine
  · exact Action.perform_bind_of_ok hengine

/-- A cursor over a map goes through its pairs in the order of their keys, each once. -/
theorem exists_lists (c : Contents) :
    ∃ ps, (Cursor.before c).seekToFirst.Lists ps ∧ Ascending ps ∧
      ∀ k v, (k, v) ∈ ps ↔ c.get? k = some v := by
  refine ⟨c.pairs, ((Cursor.follows_before c).move .first).lists, c.ascending, ?_⟩
  intro k v
  exact Contents.get?_eq_some_iff.symm

/-- An engine does not start to write for an empty batch, whatever else fails. -/
theorem perform_write_nil {f : Fault} (hf : f.IsEngines) (hlive : h.isLive id = true) :
    ∃ h', (Host.write f id []).perform h = (.ok (), h') ∧ h'.contents id = h.contents id := by
  -- Writing back what is there leaves the contents.
  refine ⟨h.setContents id (h.contents id), ?_, contents_setContents hlive _⟩
  simp only [Action.perform, Host.write, hf.write_nil]

/-- A batch that is written to a live engine leaves of each key what its last write says, and
    nothing else fits that, or it fails and nothing of it is done; an empty batch fails only where
    someone in front of the engine refuses it. Two batches in a row are their concatenation, setting
    and removing a key are the batches of one write, and a cursor still finds the keys in ascending
    order. -/
theorem perform_write_leaves (hlive : h.isLive id = true) :
    (∀ f batch, f.fails (.write batch) = true → ∃ e,
      (Host.write f id batch).perform h = (.error (.engine e), h)) ∧
    (∀ f : Fault, f.IsEngines → ∃ h', (Host.write f id []).perform h = (.ok (), h') ∧
      h'.contents id = h.contents id) ∧
    (∀ f batch, f.fails (.write batch) = false → ∃ h',
      (Host.write f id batch).perform h = (.ok (), h') ∧
        Leaves batch (h.contents id) (h'.contents id) ∧
        (∀ c, Leaves batch (h.contents id) c → c = h'.contents id) ∧
        ∃ ps, (Cursor.before (h'.contents id)).seekToFirst.Lists ps ∧ Ascending ps ∧
          ∀ k v, (k, v) ∈ ps ↔ (h'.contents id).get? k = some v) ∧
    (∀ b₁ b₂, (do Host.write .none id b₁; Host.write .none id b₂ : Action Host Unit).perform h =
      (Host.write .none id (b₁ ++ b₂)).perform h) ∧
    (∀ key value, (Host.write .none id [.put key value]).perform h =
        (.ok (), h.setContents id ((h.contents id).insert key value)) ∧
      (Host.write .none id [.delete key]).perform h =
        (.ok (), h.setContents id ((h.contents id).erase key))) ∧
    ∀ f db name key value, Database.engineOf? db name = some id →
      (Database.put f db name key value).perform h =
          (Host.write f id [.put key value]).perform h ∧
        (Database.delete f db name key).perform h = (Host.write f id [.delete key]).perform h := by
  refine ⟨?_, fun f hf => perform_write_nil hf hlive, ?_, perform_write_write hlive, ?_, ?_⟩
  · intro f batch hfails
    rw [perform_write, hfails, if_pos rfl]
    exact ⟨_, rfl⟩
  · intro f batch hpasses
    refine ⟨_, perform_write_of_passes h id hpasses, ?_, ?_, exists_lists _⟩
    · exact leaves_iff.2 (contents_setContents hlive _)
    · intro c hleaves
      rw [contents_setContents hlive]
      exact leaves_iff.1 hleaves
  · intro key value
    exact ⟨perform_write_of_passes h id rfl, perform_write_of_passes h id rfl⟩
  · intro f db name key value hid
    exact perform_single_write hid f key value h

/-- A host on which one engine is open. -/
def soleEngine (c : Contents) : Host :=
  ⟨(Disk.empty []).put [engineFileName] (.engine c), [⟨0, [engineFileName], 1, 0⟩], 1⟩

/-- One key is set, removed and set again, another one is set and removed. -/
theorem perform_write_leaves_of_repeated_keys :
    let h := soleEngine ((Contents.empty.insert [2] [0]).insert [9] [7])
    let batch : Batch :=
      [.put [1] [1], .delete [1], .put [2] [2], .put [1] [3], .delete [2], .put [] [4]]
    h.isLive 0 = true ∧ ∃ h', (Host.write .none 0 batch).perform h = (.ok (), h') ∧
      (h'.contents 0).get? [1] = some [3] ∧ (h'.contents 0).get? [2] = none ∧
      (h'.contents 0).get? [9] = some [7] ∧
      (Host.write .none 0 batch).perform h' = (Host.write .none 0 (batch ++ batch)).perform h := by
  intro h batch
  have hlive : h.isLive 0 = true := rfl
  obtain ⟨-, -, hwrite, htwice, -, -⟩ := perform_write_leaves hlive
  obtain ⟨h', hperform, hleaves, -⟩ := hwrite .none batch rfl
  -- Each key by the last write that names it; one that is not named keeps its value.
  refine ⟨hlive, h', hperform, ?_, ?_, ?_, ?_⟩
  · exact hleaves.put [.put [1] [1], .delete [1], .put [2] [2]] [.delete [2], .put [] [4]] [1] [3]
      rfl (by simp [Write.key])
  · exact hleaves.delete [.put [1] [1], .delete [1], .put [2] [2], .put [1] [3]] [.put [] [4]] [2]
      rfl (by simp [Write.key])
  · rw [hleaves.others [9] (by simp [batch, Write.key])]
    rfl
  · rw [← htwice batch batch, Action.perform_bind_of_ok hperform]

end Host

end ReplicaStore
