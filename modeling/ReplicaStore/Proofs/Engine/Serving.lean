import ReplicaStore.Proofs.Engine.Opening

/-! # Live engines with one owner

    A live engine that one owner holds, and some readers walk, stands alone at its location, and
    what it holds is on the disk. Readers come and go; when the owner goes and no reader is left,
    the engine is gone too, its contents stay, and its location is free again.

    * `Serving`: what such an engine has.
    * `Serving.setContents`, `Serving.recount`, `Serving.dropOwner`: what is done to it. -/

namespace ReplicaStore.Host

variable {directory : String} {loc : Location} {h : Host} {id : EngineId} {k : Nat} {c : Contents}

/-- Whether the engine of a directory is live with a number of readers, and holds what its file
    has. -/
structure Serving (directory : String) (loc : Location) (h : Host) (id : EngineId) (readers : Nat)
    (c : Contents) : Prop where
  kept : Kept directory loc h.disk c
  live : ∃ others, h.engines = ⟨id, loc, 1, readers⟩ :: others ∧ Free loc others

theorem Serving.engine? (hs : Serving directory loc h id k c) :
    h.engine? id = some ⟨id, loc, 1, k⟩ := by
  obtain ⟨others, hengines, -⟩ := hs.live
  simp [Host.engine?, hengines]

theorem Serving.contents_eq (hs : Serving directory loc h id k c) : h.contents id = c := by
  simp only [Host.contents, hs.engine?, contentsAt, hs.kept.node]

theorem Serving.setContents (hs : Serving directory loc h id k c) (c' : Contents) :
    Serving directory loc (h.setContents id c') id k c' := by
  simp only [Host.setContents, hs.engine?]
  exact ⟨hs.kept.put c', hs.live⟩

/-- The engine counts one reader more, or one less. -/
theorem Serving.recount (hs : Serving directory loc h id k c) (readers : Nat → Nat) :
    Serving directory loc
      (h.recount id fun e => { e with readers := readers e.readers }) id (readers k) c := by
  obtain ⟨others, hengines, hfree⟩ := hs.live
  refine ⟨hs.kept, _, ?_, free_recount hfree id (fun n => n) readers⟩
  simp only [Host.recount, hengines, List.map_cons, if_true]
  -- The owner keeps the engine, however few read it.
  rw [List.filter_cons_of_pos]
  exact decide_eq_true (Nat.add_pos_left Nat.one_pos _)

/-- When its only owner is gone, and its readers are, the engine is closed. -/
theorem Serving.dropOwner (hs : Serving directory loc h id 0 c) :
    Kept directory loc (h.dropOwner id).disk c ∧ Free loc (h.dropOwner id).engines := by
  obtain ⟨others, hengines, hfree⟩ := hs.live
  refine ⟨hs.kept, ?_⟩
  simp only [Host.dropOwner, Host.recount, hengines, List.map_cons, if_true]
  rw [List.filter_cons_of_neg (by simp)]
  exact free_recount hfree id (· - 1) fun n => n

end ReplicaStore.Host
