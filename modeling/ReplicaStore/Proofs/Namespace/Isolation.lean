import ReplicaStore.Config.Basic
import ReplicaStore.Log.Handle
import ReplicaStore.Proofs.Namespace.Session

/-! # Names that stay apart

    The name of a namespace becomes the name of a directory, and whoever chooses the one chooses the
    other. A name that is let through leads exactly one level down, to a directory of its own: no
    namespace is inside another one, and none touches what else is kept in the data directory. Every
    other name is refused before anything is done.

    * `Path.Extends`: a path that leads from another one only downwards.
    * `Path.Apart`: two paths of which neither leads into the other.
    * `IsForbidden`: what a name must not hold.
    * `names_stay_apart`: where the directories of namespaces are, and which names have none. -/

namespace ReplicaStore

/-! ## Paths below a path -/

namespace Path

variable {base path other name : String} {rest : List String}

/-- Whether a path is another one with plain names behind it. -/
structure Extends (base : String) (rest : List String) (path : String) : Prop where
  /-- Both start at the root, or neither does. -/
  start : isAbsolute path = isAbsolute base
  /-- The names come last. -/
  names_eq : names path = names base ++ rest
  /-- Each of them leads one level down. -/
  plain : ∀ name ∈ rest, IsPlain name

theorem extends_self (base : String) : Extends base [] base := by
  refine ⟨rfl, (List.append_nil _).symm, ?_⟩
  intro name hmem
  cases hmem

theorem Extends.join (h : Extends base rest path) (hname : IsPlain name) :
    Extends base (rest ++ [name]) (join path name) := by
  constructor
  · rw [isAbsolute_join path hname, h.start]
  · rw [names_join path hname, h.names_eq, List.append_assoc]
  · intro name' hmem
    rcases List.mem_append.1 hmem with hold | hnew
    · exact h.plain name' hold
    · rw [List.mem_singleton.1 hnew]
      exact hname

theorem extends_join (base : String) (hname : IsPlain name) :
    Extends base [name] (Path.join base name) :=
  (extends_self base).join hname

theorem foldl_step_of_plain (hplain : ∀ name ∈ rest, IsPlain name) (loc : Location) :
    rest.foldl step loc = loc ++ rest := by
  induction rest generalizing loc with
  | nil => exact (List.append_nil loc).symm
  | cons name rest ih =>
    rw [List.foldl_cons, (hplain name List.mem_cons_self).step_eq,
      ih fun name' hmem => hplain name' (List.mem_cons_of_mem name hmem), List.append_assoc]
    rfl

/-- On every disk, the names are on the way down from where the first path leads. -/
theorem Extends.resolve_eq (h : Extends base rest path) (d : Disk) :
    d.resolve path = d.resolve base ++ rest := by
  -- Both walks start in the same place, and the second one goes on where the first ends.
  have hstart : d.start path = d.start base := by
    simp only [Disk.start, h.start]
  unfold Disk.resolve
  rw [hstart, h.names_eq, List.foldl_append, foldl_step_of_plain h.plain]

/-! ## Paths apart -/

/-- Whether two paths are different, and neither leads to the other one, into it or above it: not by
    their names, and not on any disk. -/
structure Apart (path other : String) : Prop where
  ne : path ≠ other
  names : ¬ names path <+: names other ∧ ¬ names other <+: names path
  places : ∀ d : Disk, ¬ d.resolve path <+: d.resolve other ∧ ¬ d.resolve other <+: d.resolve path

theorem not_prefix_of_ne {common s t : List String} {a b : String} (hne : a ≠ b) :
    ¬ common ++ a :: s <+: common ++ b :: t := by
  intro hprefix
  have hcons := (List.prefix_append_right_inj common).1 hprefix
  exact hne (List.cons_prefix_cons.1 hcons).1

/-- Two paths that go down from one path under different names never meet again. -/
theorem Extends.apart {a b : String} {s t : List String} (h : Extends base (a :: s) path)
    (h' : Extends base (b :: t) other) (hne : a ≠ b) : Apart path other := by
  -- Behind the common names the next ones differ, so neither list is the beginning of the other.
  have hnames : ¬ Path.names path <+: Path.names other ∧
      ¬ Path.names other <+: Path.names path := by
    rw [h.names_eq, h'.names_eq]
    exact ⟨not_prefix_of_ne hne, not_prefix_of_ne hne.symm⟩
  refine ⟨?_, hnames, ?_⟩
  · intro heq
    subst heq
    exact hnames.1 List.prefix_rfl
  · intro d
    rw [h.resolve_eq d, h'.resolve_eq d]
    exact ⟨not_prefix_of_ne hne, not_prefix_of_ne hne.symm⟩

end Path

namespace Database

open ReplicaStore.Path

variable {name other root : String} {f : Fault} {db : Database} {h h' : Host}

/-! ## Forbidden names -/

/-- Whether a name holds a separator of any system, the character that ends paths, or two dots in a
    row. -/
def IsForbidden (name : String) : Prop :=
  '/' ∈ name.toList ∨ '\\' ∈ name.toList ∨ '\x00' ∈ name.toList ∨ ['.', '.'] <:+: name.toList

theorem hasTwoDots_iff (cs : List Char) : hasTwoDots cs = true ↔ ['.', '.'] <:+: cs := by
  fun_induction hasTwoDots cs with
  | case1 rest =>
    have hfront : ['.', '.'] <:+: '.' :: '.' :: rest := (List.prefix_append _ rest).isInfix
    simp [hfront]
  | case2 c cs hdots ih =>
    -- The two dots do not stand in front, so they stand further on.
    have hfront : ¬ ['.', '.'] <+: c :: cs := by
      intro hprefix
      obtain ⟨rest, hrest⟩ := hprefix
      injection hrest with hc hcs
      exact hdots rest hc.symm hcs.symm
    rw [ih, List.infix_cons_iff]
    simp [hfront]
  | case3 => simp

theorem isValidName_eq_false_iff : isValidName name = false ↔ IsForbidden name := by
  unfold isValidName IsForbidden
  simp [hasTwoDots_iff, or_iff_not_imp_left]

theorem isValidName_iff : isValidName name = true ↔ ¬ IsForbidden name := by
  rw [← isValidName_eq_false_iff, Bool.not_eq_false]

/-! ## Directories -/

/-- Whether a path is that of the database with one more name: a plain one, which holds no separator
    of any system and no NUL, and ends as the names of namespaces' directories do. -/
def IsOneBelow (root path : String) : Prop :=
  ∃ last, Extends root [last] path ∧ '\\' ∉ last.toList ∧ '\x00' ∉ last.toList ∧
    directorySuffix.toList <:+ last.toList

theorem isOneBelow_of_isValidName (hvalid : isValidName name = true) (root : String) :
    IsOneBelow root (directoryOf root name) := by
  have hfree := isValidName_iff.1 hvalid
  have hsuffix := toList_directoryName name
  refine ⟨directoryName name, extends_join root (isPlain_directoryName hvalid), ?_, ?_, ?_⟩
  · intro hmem
    rw [hsuffix] at hmem
    exact hfree (.inr (.inl (by simpa using hmem)))
  · intro hmem
    rw [hsuffix] at hmem
    exact hfree (.inr (.inr (.inl (by simpa using hmem))))
  · rw [hsuffix]
    exact List.suffix_append _ _

theorem apart_directoryOf (hvalid : isValidName name = true) (hvalid' : isValidName other = true)
    (hne : name ≠ other) (root : String) :
    Apart (directoryOf root name) (directoryOf root other) := by
  have hextends := extends_join root (isPlain_directoryName hvalid)
  have hextends' := extends_join root (isPlain_directoryName hvalid')
  exact hextends.apart hextends' fun heq => hne (directoryName_inj heq)

/-- The directory of a namespace is apart from whatever stands under another name in the data
    directory. -/
theorem apart_of_databasePath (hvalid : isValidName name = true) (c : Config) {sibling : String}
    (hplain : IsPlain sibling) (hne : Config.databaseDirectoryName ≠ sibling) :
    Apart (directoryOf c.databasePath name) (Path.join c.dataDirectory sibling) := by
  have hdatabase : IsPlain Config.databaseDirectoryName := by decide
  have hextends := (extends_join c.dataDirectory hdatabase).join (isPlain_directoryName hvalid)
  exact hextends.apart (extends_join c.dataDirectory hplain) hne

/-! ## Refusals -/

/-- An engine is refused by the system or by the engine itself, never for a name. -/
theorem exists_engine_of_perform_ensureEngine {directory : String} {e : Error}
    (hperform : (Host.ensureEngine directory).perform h = (.error e, h')) :
    ∃ cause, e = .engine cause := by
  simp only [Action.perform, Host.ensureEngine] at hperform
  split at hperform
  · cases hperform
    exact ⟨_, rfl⟩
  split at hperform
  · cases hperform
    exact ⟨_, rfl⟩
  split at hperform
  · cases hperform
  · cases hperform
  · cases hperform
  · cases hperform
    exact ⟨_, rfl⟩
  · cases hperform
    exact ⟨_, rfl⟩

theorem exists_engine_of_perform_openEngine {directory : String} {e : Error}
    (hperform : (Host.openEngine f directory).perform h = (.error e, h')) :
    ∃ cause, e = .engine cause := by
  cases hcall : f.fails (.openAt directory) with
  | true =>
    rw [Host.perform_openEngine_of_fails hcall] at hperform
    cases hperform
    exact ⟨_, rfl⟩
  | false =>
    -- Behind the injected failure, it is the file that fails, or the lock.
    rcases hensure : (Host.ensureEngine directory).perform h with ⟨e' | loc, s⟩
    · rw [Host.perform_openEngine_of_ensureEngine hcall hensure] at hperform
      cases hperform
      exact exists_engine_of_perform_ensureEngine hensure
    · rw [Host.perform_openEngine_of_ensured hcall hensure] at hperform
      split at hperform
      · cases hperform
        exact ⟨_, rfl⟩
      · cases hperform

/-- Opening fails for the name exactly if the name is forbidden. -/
theorem openNamespace_invalid_iff :
    ((openNamespace f db name).perform h).1 = .error (.invalidNamespace name) ↔
      IsForbidden name := by
  rw [← isValidName_eq_false_iff]
  -- The name is checked first; behind that check every error is one of an engine.
  cases hvalid : isValidName name with
  | false =>
    rw [perform_openNamespace_of_invalid hvalid]
    simp
  | true =>
    cases hopen : db.isOpen name with
    | true =>
      rw [perform_openNamespace_of_isOpen hvalid hopen]
      simp
    | false =>
      rw [perform_openNamespace_of_closed hvalid hopen]
      cases db.liveClosed? h name with
      | some id => simp
      | none =>
        rcases hengine : (Host.openEngine f (directoryOf db.root name)).perform h with ⟨e | id, s⟩
        · obtain ⟨cause, rfl⟩ := exists_engine_of_perform_openEngine hengine
          simp only [Action.perform_bind_of_error hengine]
          simp
        · simp only [Action.perform_bind_of_ok hengine]
          show (Except.ok _ : Except Error Database) = .error (.invalidNamespace name) ↔ _
          simp

/-- A forbidden name is refused, and the session stays as it is: the disk, the live engines, the
    open namespaces and the readers. -/
theorem step_openNamespace_of_isForbidden (hforbidden : IsForbidden name) (root : String)
    {s : Session} (hdb : s.database = some db) (f : Fault) :
    s.step root (.openNamespace f name) = (some (.error (.invalidNamespace name)), s) := by
  have hinvalid := isValidName_eq_false_iff.2 hforbidden
  obtain ⟨host, database, readers⟩ := s
  have hopened : database = some db := hdb
  rw [hopened]
  simp only [Session.step, Session.onDatabase, perform_openNamespace_of_invalid hinvalid]
  rfl

/-- A name that is not forbidden has a directory one level below that of the database. Different
    names have directories apart, and none of them meets the log's or the metadata's. A forbidden
    name, and so every name whose directory would be elsewhere, is refused as an invalid argument,
    and nothing changes. -/
theorem names_stay_apart :
    (∀ f db name h, ((openNamespace f db name).perform h).1 = .error (.invalidNamespace name) ↔
      IsForbidden name) ∧
    (∀ root name, ¬ IsForbidden name → IsOneBelow root (directoryOf root name)) ∧
    (∀ root name other, ¬ IsForbidden name → ¬ IsForbidden other → name ≠ other →
      Apart (directoryOf root name) (directoryOf root other)) ∧
    (∀ (c : Config) name, ¬ IsForbidden name →
      Apart (directoryOf c.databasePath name) (Path.join c.logPath LogHandle.directoryName) ∧
        Apart (directoryOf c.databasePath name) c.metadataPath) ∧
    ∀ root (s : Session) db f name, s.database = some db →
      IsForbidden name ∨ ¬ IsOneBelow db.root (directoryOf db.root name) →
      s.step root (.openNamespace f name) = (some (.error (.invalidNamespace name)), s) ∧
        (Error.invalidNamespace name).kind = .invalidArgument := by
  refine ⟨fun f db name h => openNamespace_invalid_iff, ?_, ?_, ?_, ?_⟩
  · intro root name hfree
    exact isOneBelow_of_isValidName (isValidName_iff.2 hfree) root
  · intro root name other hfree hfree' hne
    exact apart_directoryOf (isValidName_iff.2 hfree) (isValidName_iff.2 hfree') hne root
  · intro c name hfree
    have hvalid := isValidName_iff.2 hfree
    exact ⟨apart_of_databasePath hvalid c (by decide) (by decide),
      apart_of_databasePath hvalid c (by decide) (by decide)⟩
  · intro root s db f name hdb hname
    -- A name whose directory would not be one level below is forbidden, as those of the others are.
    have hforbidden : IsForbidden name := by
      rcases hname with hforbidden | helsewhere
      · exact hforbidden
      · by_contra hfree
        exact helsewhere (isOneBelow_of_isValidName (isValidName_iff.2 hfree) db.root)
    exact ⟨step_openNamespace_of_isForbidden hforbidden root hdb f, rfl⟩

/-- A single dot is a name like any other, and so is one that ends as a directory's name does. -/
theorem names_stay_apart_of_dot :
    let c : Config := { Config.default with dataDirectory := "/srv/../data/" }
    let s : Session := ⟨.ofDisk (Disk.empty []), some ⟨c.databasePath, [], []⟩, []⟩
    ¬ IsForbidden "." ∧ ¬ IsForbidden "@db" ∧ IsForbidden "a..b" ∧
      IsOneBelow c.databasePath (directoryOf c.databasePath ".") ∧
      Apart (directoryOf c.databasePath ".") (directoryOf c.databasePath "@db") ∧
      Apart (directoryOf c.databasePath "@db") c.metadataPath ∧
      s.step c.databasePath (.openNamespace .none "a..b") =
        (some (.error (.invalidNamespace "a..b")), s) := by
  intro c s
  obtain ⟨-, hbelow, hother, hapart, hrefused⟩ := names_stay_apart
  have hdot : ¬ IsForbidden "." := isValidName_iff.1 (by decide)
  have hsuffix : ¬ IsForbidden "@db" := isValidName_iff.1 (by decide)
  have hdots : IsForbidden "a..b" := isValidName_eq_false_iff.1 (by decide)
  refine ⟨hdot, hsuffix, hdots, hbelow _ "." hdot, ?_, (hapart c "@db" hsuffix).2, ?_⟩
  · exact hother _ "." "@db" hdot hsuffix (by decide)
  · exact (hrefused _ s _ .none "a..b" rfl (.inl hdots)).1

end Database

end ReplicaStore
