import ReplicaStore.Proofs.CommandLine.Dump

/-! # Dumps as JSON

    A dump as JSON has one object on each line, and each object reads back as the entry that it was
    written for; its slot stands in it as one more member. -/

namespace ReplicaStore.CommandLine

open Json OperationLog

variable {log : OperationLog} {slots : List Nat} {shown : List (Nat × Entry)}

theorem unbroken_toJson (e : Entry) : Unbroken e.toJson := by
  intro hmem
  have hle : 0x20 ≤ '\n'.toNat := Entry.le_toNat_of_mem_toJson hmem
  revert hle
  decide

/-- The lines of a dump as JSON are the objects of what is shown. -/
theorem Dumped.linesOf_eq (h : Dumped (dumpLine true) log slots shown) :
    linesOf (dumpSlots (dumpLine true) log slots).text = shown.map fun s => s.2.toJsonAt s.1 := by
  have htext : (dumpSlots (dumpLine true) log slots).text =
      lines (shown.map fun s => s.2.toJsonAt s.1) := by
    rw [h.text, lines, List.map_map]
    rfl
  rw [htext]
  apply linesOf_lines
  intro line hline
  obtain ⟨s, -, rfl⟩ := List.mem_map.1 hline
  exact unbroken_toJsonAt s.1 s.2

/-- The text of an entry reads back as the entry and has no line break in it, and so does the line
    of an entry in a dump, which is an object with the slot as one more member. A dump has one such
    line for each entry that it shows, and nothing else. -/
theorem json_loses_nothing :
    (∀ e : Entry, Entry.ofJson? e.toJson = some e ∧ Unbroken e.toJson) ∧
    (∀ (slot : Nat) (e : Entry), Entry.ofJson? (e.toJsonAt slot) = some e ∧
      Unbroken (e.toJsonAt slot) ∧
      Value.parse? (e.toJsonAt slot) =
        some (.object ((some "index", .number (some slot)) :: e.asMembers.map Member.read))) ∧
    (∀ c log, openOn .none c = .ok log → ∀ start limit, FitsLimit limit →
      ∃ shown : List (Nat × Entry),
        shown.Pairwise (fun s t => s.1 < t.1) ∧
        (∀ i e, (i, e) ∈ shown ↔
          Reached c (InWindow start limit log.length) i ∧ Holds c i e) ∧
        linesOf (dump start limit true log).text = shown.map (fun s => s.2.toJsonAt s.1) ∧
        (linesOf (dump start limit true log).text).map Entry.ofJson? =
          shown.map fun s => some s.2) := by
  refine ⟨?_, ?_, ?_⟩
  · intro e
    exact ⟨Entry.ofJson?_toJson e, unbroken_toJson e⟩
  · intro slot e
    exact ⟨Entry.ofJson?_toJsonAt slot e, unbroken_toJsonAt slot e, Entry.parse?_toJsonAt slot e⟩
  · intro c log hopen start limit hlimit
    have hlength := length_le_of_openOn hopen
    obtain rfl := contents_of_openOn hopen
    obtain ⟨shown, hshown⟩ := exists_dumped_window hlength start limit (dumpLine true)
    have hlines := hshown.linesOf_eq
    rw [← dump_eq hlimit] at hlines
    refine ⟨shown, hshown.ascending, hshown.mem_window_iff hlength, hlines, ?_⟩
    rw [hlines, List.map_map]
    apply List.map_congr_left
    intro s _
    exact Entry.ofJson?_toJsonAt s.1 s.2

/-- An entry whose texts need every kind of escape, in the least term there is. -/
def awkward : Entry :=
  ⟨.put, "\x22\\/", "\x00\x08\t\n\x0c\r\x1f\x7f", "é€😀", Int64.minValue⟩

theorem json_loses_nothing_of_awkward :
    let log : OperationLog := ⟨scarred, 6, 7⟩
    Entry.ofJson? awkward.toJson = some awkward ∧
      Entry.ofJson? (awkward.toJsonAt 9) = some awkward ∧ Unbroken (awkward.toJsonAt 9) ∧
      openOn .none scarred = .ok log ∧
      some (.put "u" "k" "v" 5) ∈ (linesOf (dump 0 none true log).text).map Entry.ofJson? := by
  intro log
  obtain ⟨hplain, hdumped, hdump⟩ := json_loses_nothing
  obtain ⟨hread, hline, -⟩ := hdumped 9 awkward
  obtain ⟨shown, -, hmem, -, hentries⟩ := hdump scarred log openOn_scarred 0 none (by decide)
  have hholds : Holds scarred 1 (.put "u" "k" "v" 5) :=
    ⟨_, by decide, Record.decode_bytesOf (by decide)⟩
  -- Nothing before the third slot is damaged, so the entry is reached.
  have hreached : Reached scarred (InWindow 0 none 6) 1 := by
    refine ⟨by decide, ?_⟩
    intro d _ hdamaged
    by_contra hle
    exact not_damaged_scarred (by omega) hdamaged
  refine ⟨(hplain awkward).1, hread, hline, openOn_scarred, ?_⟩
  rw [hentries]
  exact List.mem_map.2 ⟨(1, _), (hmem 1 _).2 ⟨hreached, hholds⟩, rfl⟩

end ReplicaStore.CommandLine
