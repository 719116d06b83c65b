import Mathlib.Data.List.Induction
import Mathlib.Data.List.Perm.Basic
import ReplicaStore.Metadata.Basic

/-! # Votes, one for each term

    The votes of a store are kept with their terms in ascending order. Setting a vote takes the
    place of an older one of its term; so of a list of votes that are set one after the other, the
    last one of each term is left.

    * `Ascending`, `Ascending.set`: the order, which is kept.
    * `perm_set`: the first vote of a term comes to those that are there.
    * `perm_ofList`, `mem_ofList_iff`, `server?_ofList_iff`: what is left of a list of votes. -/

namespace ReplicaStore.Votes

/-! ## Ascending terms -/

/-- Whether the terms of votes ascend, so that no term has two votes. -/
def Ascending (votes : Votes) : Prop :=
  votes.Pairwise fun v w => v.term < w.term

/-- What is there after a vote is set was there before it, or is that vote. -/
theorem eq_or_mem_of_mem_set {v w : Vote} {votes : Votes} (h : w ∈ set v votes) :
    w = v ∨ w ∈ votes := by
  induction votes with
  | nil => exact .inl (List.mem_singleton.1 h)
  | cons u us ih =>
    -- The vote goes in front of the first one, takes its place, or goes further behind.
    simp only [set] at h
    split at h
    · exact List.mem_cons.1 h
    · split at h
      · rcases List.mem_cons.1 h with hnew | hold
        · exact .inl hnew
        · exact .inr (List.mem_cons_of_mem u hold)
      · rcases List.mem_cons.1 h with hfirst | hrest
        · exact .inr (List.mem_cons.2 (.inl hfirst))
        · rcases ih hrest with hnew | hold
          · exact .inl hnew
          · exact .inr (List.mem_cons_of_mem u hold)

theorem Ascending.set {votes : Votes} (h : Ascending votes) (v : Vote) :
    Ascending (Votes.set v votes) := by
  unfold Ascending at h ⊢
  induction votes with
  | nil => exact List.pairwise_singleton _ v
  | cons u us ih =>
    obtain ⟨hfirst, hrest⟩ := List.pairwise_cons.1 h
    simp only [Votes.set]
    split
    · rename_i hbefore
      -- The new vote comes first, and all others lie behind the one that was first.
      refine List.pairwise_cons.2 ⟨?_, h⟩
      intro w hw
      rcases List.mem_cons.1 hw with rfl | hw
      · exact hbefore
      · exact Int64.lt_trans hbefore (hfirst w hw)
    · rename_i hnotBefore
      split
      · rename_i hsame
        refine List.pairwise_cons.2 ⟨?_, hrest⟩
        intro w hw
        rw [hsame]
        exact hfirst w hw
      · rename_i hother
        refine List.pairwise_cons.2 ⟨?_, ih hrest⟩
        intro w hw
        rcases eq_or_mem_of_mem_set hw with rfl | hw
        · exact Int64.lt_of_le_of_ne (Int64.not_lt.1 hnotBefore) (Ne.symm hother)
        · exact hfirst w hw

/-- Where terms ascend, every vote is the one that is found for its term. -/
theorem Ascending.mem_iff {votes : Votes} (h : Ascending votes) (v : Vote) :
    v ∈ votes ↔ server? v.term votes = some v.server := by
  unfold Ascending at h
  induction votes with
  | nil => simp [server?]
  | cons u us ih =>
    obtain ⟨hfirst, hrest⟩ := List.pairwise_cons.1 h
    by_cases hterm : u.term = v.term
    · -- The first vote is the only one of its term, as all others have greater ones.
      have hlater : v ∉ us := by
        intro hv
        have hlt := hfirst v hv
        rw [hterm] at hlt
        exact Int64.lt_irrefl hlt
      have hserver : server? v.term (u :: us) = some u.server := by
        simp [server?, hterm]
      rw [hserver, List.mem_cons, or_iff_left hlater, Option.some.injEq]
      constructor
      · intro heq
        rw [heq]
      · intro hsame
        obtain ⟨term, server⟩ := v
        obtain ⟨term', server'⟩ := u
        simp only at hterm hsame
        rw [hterm, hsame]
    · have hserver : server? v.term (u :: us) = server? v.term us := by
        simp [server?, hterm]
      have hne : v ≠ u := fun heq => hterm (congrArg Vote.term heq.symm)
      rw [hserver, List.mem_cons, or_iff_right hne]
      exact ih hrest

theorem server?_eq_none_iff {votes : Votes} {term : Int64} :
    votes.server? term = none ↔ ∀ v ∈ votes, v.term ≠ term := by
  simp [server?]

/-- The first vote of a term comes to those that are there. -/
theorem perm_set {v : Vote} {votes : Votes} (h : votes.server? v.term = none) :
    (votes.set v).Perm (v :: votes) := by
  induction votes with
  | nil => exact .refl _
  | cons u us ih =>
    have hne : v.term ≠ u.term := by
      intro heq
      simp [server?, heq] at h
    have hrest : server? v.term us = none := by
      simpa [server?, Ne.symm hne] using h
    simp only [set, if_neg hne]
    split
    · exact .refl _
    · exact ((ih hrest).cons u).trans (.swap v u us)

/-! ## The last vote of a term -/

/-- The votes that are left of a list of votes when one is set after the other. -/
def ofList (votes : List Vote) : Votes :=
  votes.foldl (fun known v => known.set v) []

theorem ofList_append_singleton (votes : List Vote) (v : Vote) :
    ofList (votes ++ [v]) = (ofList votes).set v := by
  rw [ofList, List.foldl_append]
  rfl

theorem ascending_ofList (votes : List Vote) : Ascending (ofList votes) := by
  induction votes using List.reverseRecOn with
  | nil => exact List.Pairwise.nil
  | append_singleton votes v ih =>
    rw [ofList_append_singleton]
    exact ih.set v

/-- Where no term has two votes, all of them are left. -/
theorem perm_ofList {votes : List Vote} (h : (votes.map Vote.term).Nodup) :
    (ofList votes).Perm votes := by
  -- By the votes in the order in which they are set, the last one last.
  induction votes using List.reverseRecOn with
  | nil => exact .refl _
  | append_singleton votes v ih =>
    rw [List.map_append, List.nodup_append] at h
    obtain ⟨hfront, -, hdisjoint⟩ := h
    have hkept := ih hfront
    -- The term of the last vote is new among those before it.
    have hnone : (ofList votes).server? v.term = none := by
      apply server?_eq_none_iff.2
      intro w hw
      exact hdisjoint w.term (List.mem_map_of_mem (hkept.mem_iff.1 hw)) v.term (by simp)
    rw [ofList_append_singleton]
    exact (perm_set hnone).trans ((hkept.cons v).trans (List.perm_append_singleton v votes).symm)

/-- Whether a vote is the last one of its term. -/
def LastVote (votes : List Vote) (v : Vote) : Prop :=
  ∃ earlier later, votes = earlier ++ v :: later ∧ ∀ w ∈ later, w.term ≠ v.term

/-- With one vote more, that vote is the last of its term, and the other terms keep theirs. -/
theorem lastVote_append_iff {votes : List Vote} {v w : Vote} :
    LastVote (votes ++ [v]) w ↔ if w.term = v.term then w = v else LastVote votes w := by
  constructor
  · rintro ⟨earlier, later, hsplit, hlater⟩
    -- Either nothing comes behind the vote, and it is the new one, or the new one is what comes
    -- last there.
    rcases List.eq_nil_or_concat later with rfl | ⟨between, last, rfl⟩
    · obtain ⟨-, hlast⟩ := List.append_inj' hsplit rfl
      obtain rfl := (List.cons.inj hlast).1
      rw [if_pos rfl]
    · rw [List.concat_eq_append, ← List.cons_append, ← List.append_assoc] at hsplit
      obtain ⟨hfront, hlast⟩ := List.append_inj' hsplit rfl
      obtain rfl := (List.cons.inj hlast).1
      have hne := hlater v (by simp)
      rw [if_neg (Ne.symm hne)]
      refine ⟨earlier, between, hfront, ?_⟩
      intro u hu
      exact hlater u (by simp [hu])
  · intro h
    split at h
    · rw [h]
      exact ⟨votes, [], rfl, by simp⟩
    · rename_i hne
      obtain ⟨earlier, later, rfl, hlater⟩ := h
      refine ⟨earlier, later ++ [v], by simp, ?_⟩
      exact List.forall_mem_append.2 ⟨hlater, List.forall_mem_singleton.2 (Ne.symm hne)⟩

/-- Of all votes of a term that are set one after the other, the last one is found. -/
theorem server?_ofList_iff (votes : List Vote) (term : Int64) (server : String) :
    (ofList votes).server? term = some server ↔ LastVote votes ⟨term, server⟩ := by
  induction votes using List.reverseRecOn with
  | nil => simp [ofList, server?, LastVote]
  | append_singleton votes v ih =>
    rw [ofList_append_singleton, server?_set, lastVote_append_iff]
    -- Of the term of the new vote that vote is found; every other term is looked up as before.
    split
    · rename_i hterm
      rw [Option.some.injEq]
      constructor
      · intro hserver
        rw [hterm, ← hserver]
      · intro hvote
        rw [← hvote]
    · exact ih

/-- The votes that are left are exactly the last ones of their terms. -/
theorem mem_ofList_iff (votes : List Vote) (v : Vote) :
    v ∈ ofList votes ↔ LastVote votes v := by
  rw [(ascending_ofList votes).mem_iff v]
  exact server?_ofList_iff votes v.term v.server

end ReplicaStore.Votes
