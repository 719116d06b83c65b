import ReplicaStore.Proofs.Namespace.Directories

/-! # Engines and who holds them

    A namespace holds its engine while it is open, and so does every reader of it. At most one
    engine is live for a namespace, and its counts are the numbers of those who hold it. Opening,
    closing, and making and dropping readers keep it so; what an engine that no one holds leaves
    is a free place.

    * `Staffed`: live engines and their holders.
    * `Staffed.recount`: holders come and go together with the counts.
    * `Staffed.open`: an engine that is opened at a free place is staffed. -/

namespace ReplicaStore.Database

open Host

/-- Those who hold an engine: names of namespaces with the identities of engines. -/
abbrev Holders := List (String × EngineId)

variable {loc : Location} {h : Host} {opened held opened' held' : Holders} {name : String}
  {id : EngineId}

/-! ## Live engines -/

/-- Whether the live engines of all namespaces are those that open namespaces and readers hold. -/
structure Staffed (loc : Location) (h : Host) (opened held : Holders) : Prop where
  /-- Every identity was given out. -/
  known : ∀ e ∈ h.engines, e.id < h.nextEngine
  /-- No other engine has the identity or the place of a namespace's engine. -/
  alone : ∀ e ∈ h.engines, ∀ name, e.location = place loc name →
    ∀ e' ∈ h.engines, e'.id = e.id ∨ e'.location = e.location → e' = e
  /-- What is held is live. -/
  live : ∀ name id, (name, id) ∈ opened ∨ (name, id) ∈ held →
    ∃ e ∈ h.engines, e.id = id ∧ e.location = place loc name
  /-- An engine counts who holds it. -/
  counts : ∀ e ∈ h.engines, ∀ name, e.location = place loc name →
    e.owners = opened.count (name, e.id) ∧ e.readers = held.count (name, e.id) ∧
      0 < e.owners + e.readers

/-- The engine that is held is the one that its identity finds. -/
theorem Staffed.engine?_eq (hs : Staffed loc h opened held)
    (hheld : (name, id) ∈ opened ∨ (name, id) ∈ held) :
    ∃ e ∈ h.engines, h.engine? id = some e ∧ e.id = id ∧ e.location = place loc name := by
  obtain ⟨e, hmem, hid, hplace⟩ := hs.live name id hheld
  refine ⟨e, hmem, ?_, hid, hplace⟩
  -- The search finds an engine of that identity, and there is one only.
  cases hfind : h.engine? id with
  | none =>
    have hnone := List.find?_eq_none.1 hfind e hmem
    simp [hid] at hnone
  | some e' =>
    have hmem' : e' ∈ h.engines := List.mem_of_find?_eq_some hfind
    have hid' : e'.id = id := by simpa using List.find?_some hfind
    rw [hs.alone e hmem name hplace e' hmem' (.inl (hid'.trans hid.symm))]

theorem Staffed.isLive (hs : Staffed loc h opened held)
    (hheld : (name, id) ∈ opened ∨ (name, id) ∈ held) : h.isLive id = true := by
  obtain ⟨e, -, hfind, -, -⟩ := hs.engine?_eq hheld
  rw [Host.isLive, hfind]
  rfl

/-- Whether someone reads an engine. -/
theorem Staffed.hasReader_eq (hs : Staffed loc h opened held)
    (hheld : (name, id) ∈ opened ∨ (name, id) ∈ held) :
    h.hasReader id = true ↔ (name, id) ∈ held := by
  obtain ⟨e, hmem, hfind, rfl, hplace⟩ := hs.engine?_eq hheld
  have hreaders := (hs.counts e hmem name hplace).2.1
  rw [Host.hasReader, hfind]
  simp only [decide_eq_true_eq, hreaders, List.count_pos_iff]

/-- Those who hold engines of one namespace hold the same one. -/
theorem Staffed.id_unique (hs : Staffed loc h opened held) {id' : EngineId}
    (hheld : (name, id) ∈ opened ∨ (name, id) ∈ held)
    (hheld' : (name, id') ∈ opened ∨ (name, id') ∈ held) : id' = id := by
  obtain ⟨e, hmem, rfl, hplace⟩ := hs.live name id hheld
  obtain ⟨e', hmem', rfl, hplace'⟩ := hs.live name id' hheld'
  rw [hs.alone e hmem name hplace e' hmem' (.inr (hplace'.trans hplace.symm))]

/-- A live engine of a namespace is held. -/
theorem Staffed.held_of_place (hs : Staffed loc h opened held) {e : LiveEngine}
    (hmem : e ∈ h.engines) (hplace : e.location = place loc name) :
    (name, e.id) ∈ opened ∨ (name, e.id) ∈ held := by
  obtain ⟨howners, hreaders, hcount⟩ := hs.counts e hmem name hplace
  rw [howners, hreaders] at hcount
  -- A live engine is counted at least once, as an owner or as a reader.
  rcases Nat.add_pos_iff_pos_or_pos.1 hcount with hopened | hheld
  · exact .inl (List.count_pos_iff.1 hopened)
  · exact .inr (List.count_pos_iff.1 hheld)

/-- The engine of a namespace is open exactly if someone holds one. -/
theorem Staffed.isLocked_iff (hs : Staffed loc h opened held) :
    h.isLocked (place loc name) = true ↔ ∃ id, (name, id) ∈ opened ∨ (name, id) ∈ held := by
  simp only [Host.isLocked, List.any_eq_true, decide_eq_true_eq]
  constructor
  · rintro ⟨e, hmem, hplace⟩
    exact ⟨e.id, hs.held_of_place hmem hplace⟩
  · rintro ⟨id, hheld⟩
    obtain ⟨e, hmem, -, hplace⟩ := hs.live name id hheld
    exact ⟨e, hmem, hplace⟩

/-- The holder of an engine is known by the engine's identity. -/
theorem Staffed.holder_eq_iff (hs : Staffed loc h opened held)
    (hheld : (name, id) ∈ opened ∨ (name, id) ∈ held) {e : LiveEngine} (hmem : e ∈ h.engines)
    {name' : String} (hplace : e.location = place loc name') :
    (name', e.id) = (name, id) ↔ e.id = id := by
  constructor
  · intro heq
    cases heq
    rfl
  · intro hid
    obtain ⟨e', hmem', rfl, hplace'⟩ := hs.live name id hheld
    -- Engines of one identity are one engine, so they are of one namespace.
    have hsame := hs.alone e hmem name' hplace e' hmem' (.inl hid.symm)
    subst hsame
    rw [place_inj (hplace'.symm.trans hplace)]

theorem Staffed.perm (hs : Staffed loc h opened held) (hopened : opened.Perm opened')
    (hheld : held.Perm held') : Staffed loc h opened' held' := by
  refine ⟨hs.known, hs.alone, ?_, ?_⟩
  · intro name id hmem
    rw [← hopened.mem_iff, ← hheld.mem_iff] at hmem
    exact hs.live name id hmem
  · intro e hmem name hplace
    rw [← hopened.count_eq, ← hheld.count_eq]
    exact hs.counts e hmem name hplace

theorem Staffed.of_engines (hs : Staffed loc h opened held) {h' : Host}
    (hengines : h'.engines = h.engines) (hnext : h'.nextEngine = h.nextEngine) :
    Staffed loc h' opened held := by
  obtain ⟨disk, engines, next⟩ := h'
  cases hengines
  cases hnext
  exact ⟨hs.known, hs.alone, hs.live, hs.counts⟩

/-! ## Coming and going -/

theorem count_cons_eq (x y : String × EngineId) (holders : Holders) :
    (x :: holders).count y = if y = x then holders.count y + 1 else holders.count y := by
  by_cases heq : y = x
  · rw [if_pos heq, heq, List.count_cons_self]
  · rw [if_neg heq, List.count_cons_of_ne (fun h => heq h.symm)]

theorem count_of_cons (x y : String × EngineId) (holders : Holders) :
    holders.count y = if y = x then (x :: holders).count y - 1 else (x :: holders).count y := by
  rw [count_cons_eq]
  by_cases heq : y = x
  · rw [if_pos heq, if_pos heq, Nat.add_sub_cancel]
  · rw [if_neg heq, if_neg heq]

/-- A live engine with other counts, if it is the one with a given identity. -/
def recounted (id : EngineId) (owners readers : Nat → Nat) (e : LiveEngine) : LiveEngine :=
  if e.id = id then { e with owners := owners e.owners, readers := readers e.readers } else e

variable {owners readers : Nat → Nat} {e : LiveEngine}

@[simp] theorem id_recounted : (recounted id owners readers e).id = e.id := by
  unfold recounted
  split <;> rfl

@[simp] theorem location_recounted : (recounted id owners readers e).location = e.location := by
  unfold recounted
  split <;> rfl

/-- An engine that no one holds any longer is gone. -/
theorem mem_recount_iff {e' : LiveEngine} :
    e' ∈ (h.recount id fun e =>
      { e with owners := owners e.owners, readers := readers e.readers }).engines ↔
    ∃ e ∈ h.engines, recounted id owners readers e = e' ∧ 0 < e'.owners + e'.readers := by
  simp only [Host.recount, List.mem_filter, List.mem_map, decide_eq_true_eq, recounted]
  constructor
  · rintro ⟨⟨e, hmem, rfl⟩, hpos⟩
    exact ⟨e, hmem, rfl, hpos⟩
  · rintro ⟨e, hmem, rfl, hpos⟩
    exact ⟨⟨e, hmem, rfl⟩, hpos⟩

/-- Where the counts of one engine change as the numbers of its holders do, every engine counts who
    holds it now. -/
theorem Staffed.counts_recounted (hs : Staffed loc h opened held)
    (hheld : (name, id) ∈ opened ∨ (name, id) ∈ held)
    (howners : ∀ x, opened'.count x = if x = (name, id) then owners (opened.count x)
      else opened.count x)
    (hreaders : ∀ x, held'.count x = if x = (name, id) then readers (held.count x)
      else held.count x)
    (hmem : e ∈ h.engines) {name' : String} (hplace : e.location = place loc name') :
    (recounted id owners readers e).owners = opened'.count (name', e.id) ∧
      (recounted id owners readers e).readers = held'.count (name', e.id) := by
  obtain ⟨hcount, hcount', -⟩ := hs.counts e hmem name' hplace
  have hiff := hs.holder_eq_iff hheld hmem hplace
  unfold recounted
  rw [howners, hreaders, ← hcount, ← hcount']
  -- Of the engine with the identity both counts change, and of every other one neither does.
  by_cases hid : e.id = id
  · rw [if_pos hid, if_pos (hiff.2 hid), if_pos (hiff.2 hid)]
    exact ⟨rfl, rfl⟩
  · rw [if_neg hid, if_neg (fun heq => hid (hiff.1 heq)), if_neg (fun heq => hid (hiff.1 heq))]
    exact ⟨rfl, rfl⟩

/-- Where the counts of one engine change as the numbers of its holders do, the engines stay
    staffed. -/
theorem Staffed.recount (hs : Staffed loc h opened held)
    (hheld : (name, id) ∈ opened ∨ (name, id) ∈ held) (owners readers : Nat → Nat)
    (howners : ∀ x, opened'.count x = if x = (name, id) then owners (opened.count x)
      else opened.count x)
    (hreaders : ∀ x, held'.count x = if x = (name, id) then readers (held.count x)
      else held.count x) :
    Staffed loc (h.recount id fun e =>
      { e with owners := owners e.owners, readers := readers e.readers }) opened' held' := by
  -- Identities and places do not change, so all that is left to see is who is held, and how often.
  refine ⟨?_, ?_, ?_, ?_⟩
  · intro e' hmem'
    obtain ⟨e, hmem, rfl, -⟩ := mem_recount_iff.1 hmem'
    rw [id_recounted]
    exact hs.known e hmem
  · intro e₁' hmem₁' name' hplace e₂' hmem₂' hsame
    obtain ⟨e₁, hmem₁, rfl, -⟩ := mem_recount_iff.1 hmem₁'
    obtain ⟨e₂, hmem₂, rfl, -⟩ := mem_recount_iff.1 hmem₂'
    simp only [id_recounted, location_recounted] at hplace hsame
    rw [hs.alone e₁ hmem₁ name' hplace e₂ hmem₂ hsame]
  · intro name' id' hnow
    have hpos : 0 < opened'.count (name', id') + held'.count (name', id') := by
      rcases hnow with hmem | hmem
      · exact Nat.add_pos_left (List.count_pos_iff.2 hmem) _
      · exact Nat.add_pos_right _ (List.count_pos_iff.2 hmem)
    -- Whoever holds an engine now held it before, or holds the one whose counts changed.
    have hthen : (name', id') ∈ opened ∨ (name', id') ∈ held := by
      by_cases heq : (name', id') = (name, id)
      · rw [heq]
        exact hheld
      · rw [howners, hreaders, if_neg heq, if_neg heq] at hpos
        rcases Nat.add_pos_iff_pos_or_pos.1 hpos with hcount | hcount
        · exact .inl (List.count_pos_iff.1 hcount)
        · exact .inr (List.count_pos_iff.1 hcount)
    obtain ⟨e, hmem, rfl, hplace⟩ := hs.live name' id' hthen
    obtain ⟨hcount, hcount'⟩ := hs.counts_recounted hheld howners hreaders hmem hplace
    rw [← hcount, ← hcount'] at hpos
    exact ⟨_, mem_recount_iff.2 ⟨e, hmem, rfl, hpos⟩, id_recounted, location_recounted.trans hplace⟩
  · intro e' hmem' name' hplace
    obtain ⟨e, hmem, rfl, hpos⟩ := mem_recount_iff.1 hmem'
    rw [location_recounted] at hplace
    obtain ⟨hcount, hcount'⟩ := hs.counts_recounted hheld howners hreaders hmem hplace
    rw [id_recounted]
    exact ⟨hcount, hcount', hpos⟩

/-- One more namespace holds an engine that is held already. -/
theorem Staffed.addOwner (hs : Staffed loc h opened held)
    (hheld : (name, id) ∈ opened ∨ (name, id) ∈ held) :
    Staffed loc (h.addOwner id) ((name, id) :: opened) held :=
  hs.recount hheld (· + 1) (fun n => n) (fun _ => count_cons_eq _ _ _) (fun _ => (ite_self _).symm)

/-- One namespace less holds an engine. -/
theorem Staffed.dropOwner (hs : Staffed loc h ((name, id) :: opened) held) :
    Staffed loc (h.dropOwner id) opened held :=
  hs.recount (.inl List.mem_cons_self) (· - 1) (fun n => n) (fun _ => count_of_cons _ _ _)
    (fun _ => (ite_self _).symm)

/-- One more reader holds an engine that is held already. -/
theorem Staffed.addReader (hs : Staffed loc h opened held)
    (hheld : (name, id) ∈ opened ∨ (name, id) ∈ held) :
    Staffed loc (Reader.make h id).2 opened ((name, id) :: held) :=
  hs.recount hheld (fun n => n) (· + 1) (fun _ => (ite_self _).symm) (fun _ => count_cons_eq _ _ _)

/-- One reader less holds an engine. -/
theorem Staffed.dropReader {r : Reader} (hs : Staffed loc h opened ((name, r.engine) :: held)) :
    Staffed loc (r.drop h) opened held :=
  hs.recount (.inr List.mem_cons_self) (fun n => n) (· - 1) (fun _ => (ite_self _).symm)
    (fun _ => count_of_cons _ _ _)

/-- An engine that is opened at a free place is held by who opened it. -/
theorem Staffed.open (hs : Staffed loc h opened held) (hfree : Free (place loc name) h.engines)
    (d : Disk) :
    Staffed loc ⟨d, ⟨h.nextEngine, place loc name, 1, 0⟩ :: h.engines, h.nextEngine + 1⟩
      ((name, h.nextEngine) :: opened) held := by
  -- The identity is new, so nobody holds it yet, and no live engine has it.
  have hnew : ∀ e ∈ h.engines, e.id ≠ h.nextEngine := by
    intro e hmem heq
    exact Nat.lt_irrefl _ (heq ▸ hs.known e hmem)
  have hunheld : ∀ name', (name', h.nextEngine) ∉ opened ∧ (name', h.nextEngine) ∉ held := by
    intro name'
    constructor
    · intro hmem
      obtain ⟨e, hmem', hid, -⟩ := hs.live _ _ (.inl hmem)
      exact hnew e hmem' hid
    · intro hmem
      obtain ⟨e, hmem', hid, -⟩ := hs.live _ _ (.inr hmem)
      exact hnew e hmem' hid
  refine ⟨?_, ?_, ?_, ?_⟩
  · intro e hmem
    rcases List.mem_cons.1 hmem with rfl | hold
    · exact Nat.lt_succ_self _
    · exact Nat.lt_succ_of_lt (hs.known e hold)
  · intro e hmem name' hplace e' hmem' hsame
    -- The new engine is apart from the old ones, by its identity and by its place.
    rcases List.mem_cons.1 hmem with rfl | hold
    · rcases List.mem_cons.1 hmem' with rfl | hold'
      · rfl
      · rcases hsame with hid | hat
        · exact absurd hid (hnew e' hold')
        · exact absurd hat (hfree e' hold')
    · rcases List.mem_cons.1 hmem' with rfl | hold'
      · rcases hsame with hid | hat
        · exact absurd hid.symm (hnew e hold)
        · exact absurd hat.symm (hfree e hold)
      · exact hs.alone e hold name' hplace e' hold' hsame
  · intro name' id' hmem
    have hcases : (name', id') = (name, h.nextEngine) ∨
        ((name', id') ∈ opened ∨ (name', id') ∈ held) := by
      rcases hmem with hopened | hread
      · rcases List.mem_cons.1 hopened with heq | hold
        · exact .inl heq
        · exact .inr (.inl hold)
      · exact .inr (.inr hread)
    rcases hcases with heq | hold
    · cases heq
      exact ⟨_, List.mem_cons_self, rfl, rfl⟩
    · obtain ⟨e, hmem', hid, hplace⟩ := hs.live name' id' hold
      exact ⟨e, List.mem_cons_of_mem _ hmem', hid, hplace⟩
  · intro e hmem name' hplace
    rcases List.mem_cons.1 hmem with rfl | hold
    · obtain rfl := place_inj hplace
      rw [List.count_cons_self, List.count_eq_zero.2 (hunheld name).1,
        List.count_eq_zero.2 (hunheld name).2]
      exact ⟨rfl, rfl, Nat.one_pos⟩
    · rw [List.count_cons_of_ne]
      · exact hs.counts e hold name' hplace
      · intro heq
        exact hnew e hold (congrArg Prod.snd heq).symm

end ReplicaStore.Database
