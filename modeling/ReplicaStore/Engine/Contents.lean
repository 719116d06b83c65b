import ReplicaStore.Bytes

/-! # The contents of an engine

    An engine holds a map of byte keys to byte values, kept as the list of its pairs with the keys
    in strictly ascending order. Main statements: what a look-up finds after an insertion or a
    removal (`get?_insert`, `get?_erase`), and that a map is determined by its look-ups
    (`ext_get?`). -/

namespace ReplicaStore

abbrev Pair := Bytes × Bytes

/-- A map of byte keys to byte values. -/
structure Contents where
  pairs : List Pair
  /-- Every key is below the keys after it. -/
  ascending : pairs.Pairwise (fun p q => p.1 < q.1)

namespace Contents

theorem ext {c d : Contents} (h : c.pairs = d.pairs) : c = d := by
  cases c; cases d; cases h; rfl

instance : DecidableEq Contents := fun c d =>
  if h : c.pairs = d.pairs then .isTrue (ext h) else .isFalse (fun e => h (e ▸ rfl))

def empty : Contents := ⟨[], .nil⟩

instance : Inhabited Contents := ⟨empty⟩

def get? (c : Contents) (k : Bytes) : Option Bytes :=
  c.pairs.lookup k

/-! ## Insertion -/

/-- A list of pairs with one more, put before the first greater key and in place of an equal one. -/
def insertPair (k v : Bytes) : List Pair → List Pair
  | [] => [(k, v)]
  | (k', v') :: ps =>
    if k < k' then (k, v) :: (k', v') :: ps
    else if k = k' then (k, v) :: ps
    else (k', v') :: insertPair k v ps

theorem mem_insertPair {k v : Bytes} {ps : List Pair} {p : Pair} (h : p ∈ insertPair k v ps) :
    p = (k, v) ∨ p ∈ ps := by
  induction ps with
  | nil => simpa [insertPair] using h
  | cons q qs ih =>
    obtain ⟨k', v'⟩ := q
    simp only [insertPair] at h
    split at h
    · simpa using h
    · split at h
      · simp only [List.mem_cons] at h ⊢
        exact h.imp id Or.inr
      · simp only [List.mem_cons] at h ⊢
        rcases h with h | h
        · exact .inr (.inl h)
        · exact (ih h).imp id Or.inr

theorem insertPair_ascending {k v : Bytes} {ps : List Pair}
    (h : ps.Pairwise (fun p q => p.1 < q.1)) :
    (insertPair k v ps).Pairwise (fun p q => p.1 < q.1) := by
  induction ps with
  | nil => simp [insertPair]
  | cons q qs ih =>
    obtain ⟨k', v'⟩ := q
    obtain ⟨hhead, htail⟩ := List.pairwise_cons.1 h
    simp only [insertPair]
    split
    · -- The new key comes first, below the head and so below all others.
      rename_i hk
      refine List.pairwise_cons.2 ⟨fun p hp => ?_, h⟩
      rcases List.mem_cons.1 hp with rfl | hp
      · exact hk
      · exact Bytes.lt_trans hk (hhead p hp)
    · split
      · rename_i hk
        subst hk
        exact List.pairwise_cons.2 ⟨hhead, htail⟩
      · -- The new key goes further back; whatever comes behind the head is the new key or was
        -- there.
        rename_i hlt hne
        refine List.pairwise_cons.2 ⟨fun p hp => ?_, ih htail⟩
        rcases mem_insertPair hp with rfl | hp
        · exact Bytes.lt_of_not_lt_of_ne hlt hne
        · exact hhead p hp

/-- The map with the value of a key set. -/
def insert (c : Contents) (k v : Bytes) : Contents :=
  ⟨insertPair k v c.pairs, insertPair_ascending c.ascending⟩

/-! ## Removal -/

def erase (c : Contents) (k : Bytes) : Contents :=
  ⟨c.pairs.filter (fun p => p.1 ≠ k), c.ascending.filter _⟩

/-! ## Look-ups -/

@[simp] theorem get?_empty (k : Bytes) : empty.get? k = none := rfl

theorem lookup_insertPair (k v : Bytes) (ps : List Pair) (k' : Bytes) :
    (insertPair k v ps).lookup k' = if k' = k then some v else ps.lookup k' := by
  -- The insertion stops at the first key that is not smaller, and the look-up at the first equal
  -- one.
  induction ps with
  | nil =>
    by_cases h : k' = k
    · simp [insertPair, h]
    · simp [insertPair, List.lookup_cons, h, beq_eq_false_iff_ne.2 h]
  | cons q qs ih =>
    obtain ⟨k₀, v₀⟩ := q
    simp only [insertPair]
    split
    · by_cases h : k' = k
      · simp [h]
      · simp [List.lookup_cons, h, beq_eq_false_iff_ne.2 h]
    · split
      · rename_i hk
        subst hk
        by_cases h : k' = k
        · simp [h]
        · simp [List.lookup_cons, h, beq_eq_false_iff_ne.2 h]
      · rename_i hne
        by_cases h : k' = k₀
        · have hk : k' ≠ k := fun e => hne (e ▸ h)
          simp [h, h ▸ hk]
        · simp [List.lookup_cons, beq_eq_false_iff_ne.2 h, ih]

/-- After an insertion the key has the new value and every other key its old one. -/
theorem get?_insert (c : Contents) (k v k' : Bytes) :
    (c.insert k v).get? k' = if k' = k then some v else c.get? k' :=
  lookup_insertPair k v c.pairs k'

/-- After a removal the key is absent and every other key has its old value. -/
theorem get?_erase (c : Contents) (k k' : Bytes) :
    (c.erase k).get? k' = if k' = k then none else c.get? k' := by
  obtain ⟨ps, hps⟩ := c
  simp only [get?, erase]
  clear hps
  induction ps with
  | nil => simp
  | cons q qs ih =>
    obtain ⟨k₀, v₀⟩ := q
    by_cases hk : k₀ = k
    · subst hk
      simp only [ne_eq, not_true_eq_false, decide_false, Bool.false_eq_true, not_false_eq_true,
        List.filter_cons_of_neg, ih]
      by_cases h : k' = k₀
      · simp [h]
      · simp [h, List.lookup_cons, beq_eq_false_iff_ne.2 h]
    · simp only [ne_eq, hk, not_false_eq_true, decide_true, List.filter_cons_of_pos,
        List.lookup_cons, ih]
      by_cases h : k' = k₀
      · subst h
        simp [hk]
      · simp [beq_eq_false_iff_ne.2 h]

/-- A pair of the map is what a look-up of its key finds. -/
theorem get?_eq_some_iff {c : Contents} {k v : Bytes} : c.get? k = some v ↔ (k, v) ∈ c.pairs := by
  obtain ⟨ps, hps⟩ := c
  simp only [get?]
  induction ps with
  | nil => simp
  | cons q qs ih =>
    obtain ⟨k₀, v₀⟩ := q
    obtain ⟨hhead, htail⟩ := List.pairwise_cons.1 hps
    -- A look-up finds the first pair of the key; since keys ascend, there is no second one.
    by_cases h : k = k₀
    · subst h
      simp only [List.lookup_cons, beq_self_eq_true, Option.some.injEq, List.mem_cons,
        Prod.mk.injEq, true_and]
      constructor
      · rintro rfl
        exact .inl rfl
      · rintro (rfl | hm)
        · rfl
        · exact absurd (hhead _ hm) (Bytes.lt_irrefl k)
    · simp [List.lookup_cons, beq_eq_false_iff_ne.2 h, h, ih htail]

/-- A map is determined by its look-ups. -/
theorem ext_get? {c d : Contents} (h : ∀ k, c.get? k = d.get? k) : c = d := by
  have hmem : ∀ p, p ∈ c.pairs ↔ p ∈ d.pairs := fun (k, v) => by
    rw [← get?_eq_some_iff, ← get?_eq_some_iff, h]
  apply ext
  obtain ⟨ps, hps⟩ := c
  obtain ⟨qs, hqs⟩ := d
  simp only at hmem ⊢
  clear h
  -- The least pair of both lists is the same, since each of them is a member of the other list; so
  -- the lists are the same from there on.
  induction ps generalizing qs with
  | nil =>
    cases qs with
    | nil => rfl
    | cons q qs => exact absurd ((hmem q).2 (by simp)) (by simp)
  | cons p ps ih =>
    cases qs with
    | nil => exact absurd ((hmem p).1 (by simp)) (by simp)
    | cons q qs =>
      obtain ⟨hp, htps⟩ := List.pairwise_cons.1 hps
      obtain ⟨hq, htqs⟩ := List.pairwise_cons.1 hqs
      have hpq : p = q := by
        rcases List.mem_cons.1 ((hmem p).1 (by simp)) with h | h
        · exact h
        · rcases List.mem_cons.1 ((hmem q).2 (by simp)) with h' | h'
          · exact h'.symm
          · exact absurd (Bytes.lt_trans (hq p h) (hp q h')) (Bytes.lt_irrefl _)
      subst hpq
      congr 1
      refine ih htps qs htqs fun r => ?_
      have hr := hmem r
      simp only [List.mem_cons] at hr
      constructor
      · intro h
        rcases hr.1 (.inr h) with rfl | h'
        · exact absurd (hp r h) (Bytes.lt_irrefl _)
        · exact h'
      · intro h
        rcases hr.2 (.inr h) with rfl | h'
        · exact absurd (hq r h) (Bytes.lt_irrefl _)
        · exact h'

/-! ## Neighbours in the order -/

/-- The pair of the least key. -/
def first? (c : Contents) : Option Pair :=
  c.pairs.head?

/-- The pair of the least key that is not below `k`. -/
def firstFrom? (c : Contents) (k : Bytes) : Option Pair :=
  c.pairs.find? (fun p => ¬ p.1 < k)

/-- The pair of the least key above `k`. -/
def firstAfter? (c : Contents) (k : Bytes) : Option Pair :=
  c.pairs.find? (fun p => k < p.1)

end Contents

end ReplicaStore
