import ReplicaStore.Disk.Path

/-! # Names appended to a path

    A component keeps its files under fixed names below a directory that its caller chooses. This
    module says where such a file is: whatever the path of the directory looks like, the path of
    the file has the directory's names and one more. -/

namespace ReplicaStore.Path

/-! ## Pieces between slashes -/

/-- A slash between two texts separates their pieces. -/
theorem splitSlashes_append (cs ds : List Char) :
    splitSlashes (cs ++ separator :: ds) = splitSlashes cs ++ splitSlashes ds := by
  induction cs with
  | nil => simp [splitSlashes]
  | cons c cs ih =>
    rw [List.cons_append, splitSlashes, splitSlashes]
    by_cases hc : c = separator
    · rw [if_pos hc, if_pos hc, ih, List.cons_append]
    · rw [if_neg hc, if_neg hc, ih]
      obtain ⟨piece, pieces, hpieces⟩ := List.exists_cons_of_ne_nil (splitSlashes_ne_nil cs)
      rw [hpieces]
      rfl

/-- A text without slashes is one piece. -/
theorem splitSlashes_of_not_mem {cs : List Char} (h : separator ∉ cs) : splitSlashes cs = [cs] := by
  induction cs with
  | nil => rfl
  | cons c cs ih =>
    have hc : c ≠ separator := fun e => h (by simp [e])
    have hcs : separator ∉ cs := fun hm => h (List.mem_cons_of_mem c hm)
    rw [splitSlashes, if_neg hc, ih hcs]

/-! ## Plain names -/

/-- A name that leads one level down: it is not empty, holds no slash and is no dot. -/
def IsPlain (name : String) : Prop :=
  name ≠ "" ∧ separator ∉ name.toList ∧ name ≠ selfName ∧ name ≠ parentName

instance (name : String) : Decidable (IsPlain name) :=
  inferInstanceAs (Decidable (_ ∧ _ ∧ _ ∧ _))

variable {name : String}

theorem IsPlain.toList_ne_nil (h : IsPlain name) : name.toList ≠ [] := by
  intro hnil
  exact h.1 (String.toList_inj.1 (by simpa using hnil))

theorem IsPlain.not_isAbsolute (h : IsPlain name) : isAbsolute name = false := by
  obtain ⟨c, cs, hcs⟩ := List.exists_cons_of_ne_nil h.toList_ne_nil
  have hc : c ≠ separator := fun e => h.2.1 (by simp [hcs, e])
  simp [isAbsolute, hcs, hc]

theorem IsPlain.names_eq (h : IsPlain name) : names name = [name] := by
  rw [names, splitSlashes_of_not_mem h.2.1]
  simp [h.toList_ne_nil]

theorem IsPlain.step_eq (h : IsPlain name) (loc : Location) : step loc name = loc ++ [name] :=
  step_of_ne h.2.2.1 h.2.2.2 loc

/-! ## Joined paths -/

/-- The text of a joined path: the name alone, or a slash between the two texts. -/
theorem toList_join (base : String) (h : IsPlain name) :
    join base name = name ∧ base = "" ∨
      ∃ cs, (join base name).toList = cs ++ separator :: name.toList ∧
        (base.toList = cs ∧ cs ≠ [] ∨ base.toList = cs ++ [separator]) := by
  unfold join
  rw [h.not_isAbsolute]
  by_cases hempty : base = ""
  · left
    simp [hempty]
  · right
    rw [if_neg (by simp [hempty])]
    -- A directory that ends in a slash already gets no second one.
    by_cases hslash : base.toList.getLast? = some separator
    · obtain ⟨cs, hcs⟩ := List.getLast?_eq_some_iff.1 hslash
      refine ⟨cs, ?_, .inr hcs⟩
      rw [if_pos hslash, String.toList_append, hcs, List.append_assoc]
      rfl
    · have hne : base.toList ≠ [] := fun hnil => hempty (String.toList_inj.1 (by simpa using hnil))
      refine ⟨base.toList, ?_, .inl ⟨rfl, hne⟩⟩
      rw [if_neg hslash, String.toList_append, String.toList_append, List.append_assoc]
      rfl

/-- The names of a joined path are those of the directory and the name. -/
theorem names_join (base : String) (h : IsPlain name) :
    names (join base name) = names base ++ [name] := by
  have hlast : ((splitSlashes name.toList).filter (· ≠ [])).map String.ofList = [name] := h.names_eq
  rcases toList_join base h with ⟨hjoin, hbase⟩ | ⟨cs, hjoin, hbase⟩
  · rw [hjoin, hbase, h.names_eq]
    rfl
  · have hnames : names base = ((splitSlashes cs).filter (· ≠ [])).map String.ofList := by
      -- A slash at the end of the directory's path only adds an empty piece, which is no name.
      rcases hbase with ⟨hcs, -⟩ | hcs
      · rw [names, hcs]
      · rw [names, hcs, splitSlashes_append]
        simp [splitSlashes]
    rw [names, hjoin, splitSlashes_append, List.filter_append, List.map_append, hlast, hnames]

/-- A joined path starts where the directory's path does. -/
theorem isAbsolute_join (base : String) (h : IsPlain name) :
    isAbsolute (join base name) = isAbsolute base := by
  rcases toList_join base h with ⟨hjoin, hbase⟩ | ⟨cs, hjoin, ⟨hcs, hne⟩ | hcs⟩
  · rw [hjoin, hbase, h.not_isAbsolute]
    rfl
  · obtain ⟨c, cs', rfl⟩ := List.exists_cons_of_ne_nil hne
    simp [isAbsolute, hjoin, hcs]
  · -- What comes before the slash may be empty, as it is for the root.
    cases cs with
    | nil => simp [isAbsolute, hjoin, hcs]
    | cons c cs' => simp [isAbsolute, hjoin, hcs]

/-- A joined path may name a file. -/
theorem endsInSlash_join (base : String) (h : IsPlain name) :
    endsInSlash (join base name) = false := by
  have hlast : name.toList.getLast? ≠ some separator := fun e => h.2.1 (List.mem_of_getLast? e)
  rcases toList_join base h with ⟨hjoin, -⟩ | ⟨cs, hjoin, -⟩
  · simp [endsInSlash, hjoin, hlast]
  · obtain ⟨c, cs', hname⟩ := List.exists_cons_of_ne_nil h.toList_ne_nil
    have hback : (cs ++ separator :: name.toList).getLast? = name.toList.getLast? := by
      rw [hname, List.getLast?_append, List.getLast?_cons_cons]
      simp [List.getLast?_cons]
    rw [endsInSlash, hjoin, hback]
    simp [hlast]

end ReplicaStore.Path
