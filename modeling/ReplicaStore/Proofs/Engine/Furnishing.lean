import ReplicaStore.Proofs.Disk.Furnishing
import ReplicaStore.Proofs.Engine.Opening

/-! # Furnishing for an engine

    An engine is opened below a rooted path. What comes of it is told by what stands in two places,
    that of the directory and that of the engine file, and by the lengths of their paths; and it
    leaves both places furnished, whether it succeeds or fails.

    * `openingEngine`, `openingBelow`: what comes of opening an engine.
    * `Rooted.perform_openEngine`: opening the engine of a rooted directory.
    * `Rooted.perform_openEngine_join`: opening the engine of a directory below it. -/

namespace ReplicaStore.Disk

open Host

variable {h : Host} {d : Disk} {plan : Plan} {base : Location} {rel : List String}
  {directory root name : String} {m n m' n' : Option Node}

/-- What comes of opening the engine file of a path, by what stands in its place. -/
def openingEngine (path : String) (n : Option Node) : Except EngineError Contents := do
  (Path.check path).mapError .file
  engineFound n

/-- What comes of opening the engine of a directory below another one, by what stands in the places
    of the directory and of the engine file. -/
def openingBelow (root name : String) (m n : Option Node) : Except EngineError Contents := do
  (making (Path.join root name) name m).mapError .io
  openingEngine (Path.join (Path.join root name) engineFileName) n

theorem openingEngine_congr (h : Fixture.engine.Alike n n') (path : String) :
    openingEngine path n = openingEngine path n' := by
  have hfound : engineFound n = engineFound n' := h
  unfold openingEngine
  rw [hfound]

theorem openingBelow_congr (hm : Fixture.directory.Alike m m') (hn : Fixture.engine.Alike n n')
    (root name : String) : openingBelow root name m n = openingBelow root name m' n' := by
  unfold openingBelow
  rw [making_congr hm, openingEngine_congr hn]

/-! ## The engine file -/

theorem engineFound_of_unwritten (h : Unwritten n) : engineFound n = .ok Contents.empty := by
  obtain rfl | ⟨identity, rfl⟩ := h
  · rfl
  · rfl

/-- Making sure of the engine file of a rooted directory, where the plan has one. -/
theorem Rooted.perform_ensureEngine (hr : Rooted directory (base ++ rel) h.disk)
    (hplan : plan (rel ++ [engineFileName]) = some .engine) :
    let loc := base ++ (rel ++ [engineFileName])
    let found := openingEngine (Path.join directory engineFileName) (h.disk.node? loc)
    ∃ d', (ensureEngine directory).perform h =
        ((found.mapError Error.engine).map fun _ => loc, { h with disk := d' }) ∧
      Furnished plan base h.disk d' ∧ (∀ c, found = .ok c → d'.node? loc = some (.engine c)) ∧
      ∀ c, h.disk.node? loc = some (.engine c) → d' = h.disk := by
  intro loc found
  have hplain : Path.IsPlain engineFileName := by decide
  have hlocate := hr.locate_join hplain (by decide)
  rw [List.append_assoc] at hlocate
  have hfound : found = openingEngine (Path.join directory engineFileName) (h.disk.node? loc) := rfl
  unfold openingEngine at hfound
  simp only [Action.perform, ensureEngine, hr.made]
  -- The directory is there; what can still fail is the path of the file, and then what stands in
  -- its place.
  cases hcheck : Path.check (Path.join directory engineFileName) with
  | error e =>
    rw [hcheck] at hlocate hfound
    rw [hlocate, hfound]
    exact ⟨h.disk, rfl, .refl plan base h.disk, (fun _ hok => by cases hok), fun _ _ => rfl⟩
  | ok u =>
    rw [hcheck] at hlocate hfound
    rw [hlocate, hfound]
    simp only [Except.map]
    -- A new engine file, wherever nothing was written yet.
    have hnew : (h.disk.put loc (.engine Contents.empty)).node? loc =
        some (.engine Contents.empty) := by simp
    have hput (hunwritten : Unwritten (h.disk.node? loc)) :
        Furnished plan base h.disk (h.disk.put loc (.engine Contents.empty)) := by
      apply Furnished.of_sameBut hplan (sameBut_put h.disk loc _)
      · show engineFound (h.disk.node? loc) = engineFound _
        rw [hnew, engineFound_of_unwritten hunwritten]
        rfl
      · exact fun hdirectory => absurd hdirectory hunwritten.ne_directory
    have hread : ∀ c, (.ok Contents.empty : Except EngineError Contents) = .ok c →
        (h.disk.put loc (.engine Contents.empty)).node? loc = some (.engine c) := by
      intro c hc
      obtain rfl : Contents.empty = c := Except.ok.inj hc
      exact hnew
    cases hnode : h.disk.node? loc with
    | none =>
      exact ⟨h.disk.put loc (.engine Contents.empty), rfl, hput (.inl hnode), hread,
        fun _ heq => by cases heq⟩
    | some n =>
      cases n with
      | directory =>
        exact ⟨h.disk, rfl, .refl plan base h.disk, (fun _ hok => by cases hok), fun _ _ => rfl⟩
      | file identity data =>
        cases data with
        | nil =>
          exact ⟨h.disk.put loc (.engine Contents.empty), rfl, hput (.inr ⟨identity, hnode⟩), hread,
            fun _ heq => by cases heq⟩
        | cons b bs =>
          exact ⟨h.disk, rfl, .refl plan base h.disk, (fun _ hok => by cases hok), fun _ _ => rfl⟩
      | engine c =>
        refine ⟨h.disk, rfl, .refl plan base h.disk, ?_, fun _ _ => rfl⟩
        intro c' hc
        obtain rfl : c = c' := Except.ok.inj hc
        exact hnode

/-! ## Opening -/

/-- What is left of opening an engine at a location: the engine is live if its file was found. -/
def opened (found : Except EngineError Contents) (loc : Location) (h : Host) (d : Disk) :
    Except Error EngineId × Host :=
  match found with
  | .error e => (.error (.engine e), { h with disk := d })
  | .ok _ => (.ok h.nextEngine, ⟨d, ⟨h.nextEngine, loc, 1, 0⟩ :: h.engines, h.nextEngine + 1⟩)

/-- Opening the engine of a rooted directory that no one has open. -/
theorem Rooted.perform_openEngine (hr : Rooted directory (base ++ rel) h.disk)
    (hplan : plan (rel ++ [engineFileName]) = some .engine)
    (hfree : Free (base ++ (rel ++ [engineFileName])) h.engines) :
    let loc := base ++ (rel ++ [engineFileName])
    let found := openingEngine (Path.join directory engineFileName) (h.disk.node? loc)
    ∃ d', (Host.openEngine .none directory).perform h = opened found loc h d' ∧
      Furnished plan base h.disk d' ∧ (∀ c, found = .ok c → d'.node? loc = some (.engine c)) ∧
      ∀ c, h.disk.node? loc = some (.engine c) → d' = h.disk := by
  intro loc found
  obtain ⟨d', hensure, hfurnished, hnode, hsame⟩ := hr.perform_ensureEngine hplan
  refine ⟨d', ?_, hfurnished, hnode, hsame⟩
  show _ = opened (openingEngine _ _) _ _ _
  cases hfound : openingEngine (Path.join directory engineFileName)
      (h.disk.node? (base ++ (rel ++ [engineFileName]))) with
  | error e =>
    rw [hfound] at hensure
    exact perform_openEngine_of_ensureEngine rfl hensure
  | ok c =>
    rw [hfound] at hensure
    -- The engine file changes no lock, so who could open the engine before still can.
    have hlocked : Host.isLocked { h with disk := d' } loc = false :=
      isLocked_eq_false_iff.2 hfree
    rw [perform_openEngine_of_ensured rfl hensure]
    show (if Host.isLocked { h with disk := d' } loc then _ else _) = _
    rw [hlocked]
    rfl

theorem perform_ensureEngine_of_made (hmade : h.disk.makeDirectories directory = (.ok (), d))
    (hagain : d.makeDirectories directory = (.ok (), d)) :
    (ensureEngine directory).perform h = (ensureEngine directory).perform { h with disk := d } := by
  simp only [Action.perform, ensureEngine, hmade, hagain]

theorem perform_openEngine_of_made (hmade : h.disk.makeDirectories directory = (.ok (), d))
    (hagain : d.makeDirectories directory = (.ok (), d)) :
    (Host.openEngine .none directory).perform h =
      (Host.openEngine .none directory).perform { h with disk := d } := by
  have hensure := perform_ensureEngine_of_made hmade hagain
  cases hresult : (ensureEngine directory).perform h with
  | mk r h' =>
  -- Making the directory once more does nothing, so the two ways meet behind it.
  rw [hresult] at hensure
  cases r with
  | error e =>
    rw [perform_openEngine_of_ensureEngine rfl hresult,
      perform_openEngine_of_ensureEngine rfl hensure.symm]
  | ok loc =>
    rw [perform_openEngine_of_ensured rfl hresult, perform_openEngine_of_ensured rfl hensure.symm]

/-- Opening the engine of a directory below a rooted path. -/
theorem Rooted.perform_openEngine_join (hr : Rooted root (base ++ rel) h.disk)
    (hname : Path.IsPlain name)
    (hdirectory : plan (rel ++ [name]) = some .directory ∨
      h.disk.node? (base ++ (rel ++ [name])) = some .directory)
    (hengine : plan (rel ++ [name] ++ [engineFileName]) = some .engine)
    (hfree : Free (base ++ (rel ++ [name] ++ [engineFileName])) h.engines) :
    let loc := base ++ (rel ++ [name] ++ [engineFileName])
    let found := openingBelow root name (h.disk.node? (base ++ (rel ++ [name]))) (h.disk.node? loc)
    ∃ d', (Host.openEngine .none (Path.join root name)).perform h = opened found loc h d' ∧
      Furnished plan base h.disk d' ∧
      (∀ c, found = .ok c → d'.node? (base ++ (rel ++ [name])) = some .directory ∧
        d'.node? loc = some (.engine c)) ∧
      ∀ c, h.disk.node? (base ++ (rel ++ [name])) = some .directory →
        h.disk.node? loc = some (.engine c) → d' = h.disk := by
  intro loc found
  obtain ⟨d₁, hmake, hfurnished₁, hrooted, hsame₁⟩ :=
    hr.makeDirectories_furnished hname hdirectory
  have hfound : found = openingBelow root name (h.disk.node? (base ++ (rel ++ [name])))
      (h.disk.node? loc) := rfl
  unfold openingBelow at hfound
  cases hmaking : making (Path.join root name) name (h.disk.node? (base ++ (rel ++ [name]))) with
  | error e =>
    rw [hmaking] at hmake hfound
    rw [hfound]
    -- Without its directory the engine is not looked for.
    have hensure : (ensureEngine (Path.join root name)).perform h =
        (.error (.engine (.io e)), { h with disk := d₁ }) := by
      simp only [Action.perform, ensureEngine, hmake]
    exact ⟨d₁, perform_openEngine_of_ensureEngine rfl hensure, hfurnished₁,
      (fun _ hok => by cases hok), fun _ hnode _ => hsame₁ hnode⟩
  | ok u =>
    rw [hmaking] at hmake hfound
    have hr₁ := hrooted hmaking
    have hopen := perform_openEngine_of_made hmake hr₁.made
    obtain ⟨d', hopen₁, hfurnished, hnode, hsame⟩ :=
      Rooted.perform_openEngine (h := { h with disk := d₁ }) hr₁ hengine hfree
    -- The engine file looks the same whether its directory was there before or was made now.
    have halike : Fixture.engine.Alike (h.disk.node? loc) (d₁.node? loc) :=
      hfurnished₁.alike (.inl hengine)
    have hsameFound : openingEngine (Path.join (Path.join root name) engineFileName)
        (d₁.node? loc) = found :=
      (openingEngine_congr halike _).symm.trans hfound.symm
    rw [hopen, hopen₁]
    refine ⟨d', congrArg (fun r => opened r loc h d') hsameFound, hfurnished₁.trans hfurnished,
      ?_, ?_⟩
    · intro c hc
      exact ⟨hfurnished.keeps.directory _ hr₁.directory, hnode c (hsameFound.trans hc)⟩
    · intro c hthere hfile
      obtain rfl := hsame₁ hthere
      exact hsame c hfile

end ReplicaStore.Disk
