import ReplicaStore.CommandLine.Report
import ReplicaStore.Proofs.Log.EntryText

/-! # Lines of a dump

    What is printed of an entry is one line, whatever its texts are: quoting and JSON both write a
    line break by an escape. So the lines of a dump can be told apart, and there is one for each
    entry.

    * `linesOf`: the lines of a text.
    * `linesOf_lines`: lines without line breaks come back.
    * `isLine_entryLine`, `isLine_entryJsonLine`: what is printed of an entry.
    * `shownSlot?_entryLine`: a line of a dump as text shows its slot. -/

namespace ReplicaStore.CommandLine

variable {s t : String} {ls : List String} {e : Entry} {slot : Nat}

/-! ## Lines of a text -/

/-- The lines of some characters: what stands before each line break, and what is left after the
    last one. -/
def splitLines : List Char → List (List Char)
  | [] => []
  | c :: cs =>
    if c = '\n' then [] :: splitLines cs
    else match splitLines cs with
      | [] => [[c]]
      | l :: ls => (c :: l) :: ls

def linesOf (s : String) : List String :=
  (splitLines s.toList).map String.ofList

/-- Whether a text has no line break. -/
def Unbroken (s : String) : Prop := '\n' ∉ s.toList

instance (s : String) : Decidable (Unbroken s) :=
  inferInstanceAs (Decidable (¬ '\n' ∈ s.toList))

/-- Whether a text is one line with its end. -/
def IsLine (s : String) : Prop := ∃ l, Unbroken l ∧ s = l ++ "\n"

theorem splitLines_append {l : List Char} (h : '\n' ∉ l) (rest : List Char) :
    splitLines (l ++ '\n' :: rest) = l :: splitLines rest := by
  induction l with
  | nil => rfl
  | cons c l ih =>
    have hc : c ≠ '\n' := fun he => h (he ▸ List.mem_cons_self)
    have hl : '\n' ∉ l := fun hm => h (List.mem_cons_of_mem c hm)
    rw [List.cons_append, splitLines, if_neg hc, ih hl]

/-- Lines that have no line break themselves can be told apart. -/
theorem linesOf_lines (h : ∀ l ∈ ls, Unbroken l) : linesOf (lines ls) = ls := by
  induction ls with
  | nil => rfl
  | cons l ls ih =>
    have hl : Unbroken l := h l List.mem_cons_self
    have hrest : linesOf (lines ls) = ls := ih fun l' hl' => h l' (List.mem_cons_of_mem l hl')
    have htext : (lines (l :: ls)).toList = l.toList ++ '\n' :: (lines ls).toList := by
      unfold lines
      rw [List.map_cons, String.join_cons, String.toList_append, String.toList_append,
        List.append_assoc]
      rfl
    unfold linesOf at hrest ⊢
    rw [htext, splitLines_append hl, List.map_cons, hrest, String.ofList_toList]

/-- Texts that are one line each are the lines that they make, with their ends. -/
theorem linesOf_join (h : ∀ s ∈ ls, IsLine s) :
    (linesOf (String.join ls)).map (fun l => l ++ "\n") = ls := by
  -- Each text is a line without its end; the lines of the join are these.
  obtain ⟨bare, hbare, hls⟩ : ∃ bare : List String, (∀ l ∈ bare, Unbroken l) ∧
      ls = bare.map fun l => l ++ "\n" := by
    induction ls with
    | nil => exact ⟨[], fun l hl => absurd hl List.not_mem_nil, rfl⟩
    | cons s ls ih =>
      obtain ⟨l, hl, rfl⟩ := h s List.mem_cons_self
      obtain ⟨bare, hbare, rfl⟩ := ih fun s' hs' => h s' (List.mem_cons_of_mem _ hs')
      refine ⟨l :: bare, ?_, rfl⟩
      intro l' hl'
      rcases List.mem_cons.1 hl' with rfl | hl'
      · exact hl
      · exact hbare l' hl'
  rw [hls]
  show (linesOf (lines bare)).map _ = _
  rw [linesOf_lines hbare]

theorem length_linesOf_join (h : ∀ s ∈ ls, IsLine s) :
    (linesOf (String.join ls)).length = ls.length := by
  calc (linesOf (String.join ls)).length
    _ = ((linesOf (String.join ls)).map fun l => l ++ "\n").length := (List.length_map _).symm
    _ = ls.length := by rw [linesOf_join h]

/-! ## Texts without line breaks -/

theorem Unbroken.append (hs : Unbroken s) (ht : Unbroken t) : Unbroken (s ++ t) := by
  unfold Unbroken at hs ht ⊢
  rw [String.toList_append, List.mem_append, not_or]
  exact ⟨hs, ht⟩

theorem digitChar_ne_newline {d : Nat} (h : d < 16) : '\n' ≠ Nat.digitChar d := by
  have hall : ∀ d : Fin 16, '\n' ≠ Nat.digitChar d := by decide
  exact hall ⟨d, h⟩

theorem newline_not_mem_toDigits {base : Nat} (hbase : 1 < base) (hle : base ≤ 16) (n : Nat) :
    '\n' ∉ Nat.toDigits base n := by
  induction n using Nat.strongRecOn with
  | ind n ih =>
    -- A number of more than one digit is a smaller one and its last digit.
    rw [Nat.toDigits_eq_if hbase]
    split
    · rename_i hlast
      rw [List.mem_singleton]
      exact digitChar_ne_newline (by omega)
    · have hless : n / base < n := Nat.div_lt_self (by omega) hbase
      have hdigit : n % base < base := Nat.mod_lt n (by omega)
      rw [List.mem_append, List.mem_singleton, not_or]
      exact ⟨ih (n / base) hless, digitChar_ne_newline (by omega)⟩

theorem unbroken_nat (n : Nat) : Unbroken (toString n) := by
  show '\n' ∉ n.repr.toList
  rw [Nat.toList_repr]
  exact newline_not_mem_toDigits (by decide) (by decide) n

theorem unbroken_int (z : Int) : Unbroken (toString z) := by
  rw [Int.toString_eq_repr]
  -- Digits are those of a natural number, behind a sign if the number is negative.
  cases z with
  | ofNat n => exact unbroken_nat n
  | negSucc n =>
    have hsign : Unbroken "-" := by decide
    exact hsign.append (unbroken_nat (n + 1))

theorem unbroken_padding (n : Nat) : Unbroken (String.ofList (List.replicate n ' ')) := by
  intro hmem
  rw [String.toList_ofList] at hmem
  have hblank : '\n' = ' ' := List.eq_of_mem_replicate hmem
  revert hblank
  decide

theorem Unbroken.padRight (h : Unbroken s) (width : Nat) : Unbroken (padRight width s) :=
  h.append (unbroken_padding _)

theorem Unbroken.padLeft (h : Unbroken s) (width : Nat) : Unbroken (padLeft width s) :=
  (unbroken_padding _).append h

/-- Inside quotes a line break is written by its letter, and codes are digits. -/
theorem newline_not_mem_encodeChar {quote : Char} (c : Char) :
    '\n' ∉ Quoted.encodeChar quote c := by
  have hdigits : '\n' ∉ Quoted.hexDigits c.toNat :=
    newline_not_mem_toDigits (by decide) (by decide) c.toNat
  unfold Quoted.encodeChar
  split
  · decide
  split
  · decide
  split
  · decide
  split
  · decide
  -- Behind the escape of the line break, the character is another one.
  rename_i hbreak
  have hplain : '\n' ≠ c := fun he => hbreak he.symm
  split
  · rw [List.mem_cons, List.mem_singleton, not_or]
    exact ⟨by decide, hplain⟩
  split
  · simp only [List.mem_append, not_or]
    exact ⟨⟨by decide, hdigits⟩, by decide⟩
  · rw [List.mem_singleton]
    exact hplain

theorem unbroken_quoted (s : String) : Unbroken (Quoted.text s) := by
  have hquote : Quoted.doubleQuote ≠ '\n' := by decide
  unfold Unbroken Quoted.text
  rw [String.toList_ofList]
  simp only [List.mem_append, List.mem_cons, List.not_mem_nil, or_false, not_or, List.mem_flatMap,
    not_exists, not_and]
  exact ⟨⟨hquote.symm, fun c _ => newline_not_mem_encodeChar c⟩, hquote.symm⟩

theorem unbroken_name (operation : Operation) : Unbroken operation.name := by
  cases operation <;> decide

/-! ## What is printed of an entry -/

theorem isLine_entryLine (slot : Nat) (e : Entry) : IsLine (entryLine slot e) := by
  have hindex := (unbroken_nat slot).padLeft 8
  have hterm := (unbroken_int e.term.toInt).padRight 6
  have hoperation := (unbroken_name e.operation).padRight 7
  refine ⟨_, ?_, rfl⟩
  -- The line is its columns and the labels between them, and a break is in none of these.
  have hlabels : Unbroken "  term=" ∧ Unbroken " " ∧ Unbroken " user=" ∧ Unbroken " key=" ∧
      Unbroken " value=" := by decide
  obtain ⟨ht, hblank, hu, hk, hv⟩ := hlabels
  exact (((((((((hindex.append ht).append hterm).append hblank).append hoperation).append hu).append
    (unbroken_quoted e.user)).append hk).append (unbroken_quoted e.key)).append hv).append
    (unbroken_quoted e.value)

/-- The slot that a line of a dump as text shows: the number in its first column. -/
def shownSlot? (line : String) : Option Nat :=
  match (line.toList.dropWhile (· = ' ')).takeWhile Char.isDigit with
  | [] => none
  | digits => some (Nat.ofDigitChars 10 digits 0)

theorem dropWhile_blanks (k n : Nat) (rest : List Char) :
    (List.replicate k ' ' ++ (Nat.toDigits 10 n ++ rest)).dropWhile (· = ' ') =
      Nat.toDigits 10 n ++ rest := by
  rw [List.dropWhile_append_of_pos fun c hc => decide_eq_true (List.eq_of_mem_replicate hc)]
  -- The blanks end where the digits begin: a number has at least one, and no digit is a blank.
  cases hdigits : Nat.toDigits 10 n with
  | nil => exact absurd hdigits Nat.toDigits_ne_nil
  | cons d ds =>
    have hd : d.isDigit = true :=
      Nat.isDigit_of_mem_toDigits (by decide) (by decide) (hdigits ▸ List.mem_cons_self)
    have hblank : d ≠ ' ' := by
      rintro rfl
      revert hd
      decide
    exact List.dropWhile_cons_of_neg (by simpa using hblank)

/-- Behind the blanks that fill the first column stand the digits of the slot, and then a blank. -/
theorem shownSlot?_of_column {line : String} {rest : List Char} (width n : Nat)
    (h : line.toList = (padLeft width (toString n)).toList ++ ' ' :: rest) :
    shownSlot? line = some n := by
  have hcolumn : (padLeft width (toString n)).toList =
      List.replicate (width - (toString n).length) ' ' ++ Nat.toDigits 10 n := by
    unfold padLeft
    rw [String.toList_append, String.toList_ofList]
    exact congrArg _ Nat.toList_repr
  have hdigits : (line.toList.dropWhile (· = ' ')).takeWhile Char.isDigit =
      Nat.toDigits 10 n := by
    rw [h, hcolumn, List.append_assoc, dropWhile_blanks,
      List.takeWhile_append_of_pos fun c hc =>
        Nat.isDigit_of_mem_toDigits (by decide) (by decide) hc,
      List.takeWhile_cons_of_neg (by decide), List.append_nil]
  unfold shownSlot?
  rw [hdigits]
  -- A number has a digit, so the column is not taken for an empty one.
  split
  · rename_i hnil
    exact absurd hnil Nat.toDigits_ne_nil
  · rw [Nat.ofDigitChars_toDigits (by decide) (by decide)]

theorem shownSlot?_entryLine (slot : Nat) (e : Entry) :
    shownSlot? (entryLine slot e) = some slot := by
  apply shownSlot?_of_column 8 slot
  unfold entryLine
  simp only [String.toList_append, List.append_assoc]
  rfl

/-- The end of a line is no part of its first column. -/
theorem shownSlot?_newline (l : String) : shownSlot? (l ++ "\n") = shownSlot? l := by
  have hend : "\n".toList = ['\n'] := by decide
  have hdigits : ((l ++ "\n").toList.dropWhile (· = ' ')).takeWhile Char.isDigit =
      (l.toList.dropWhile (· = ' ')).takeWhile Char.isDigit := by
    -- The break is reached only on a line without anything but blanks, or without anything but
    -- digits behind them; it is neither.
    rw [String.toList_append, hend, List.dropWhile_append]
    split
    · rename_i hblank
      rw [List.isEmpty_iff.1 hblank]
      rfl
    · rw [List.takeWhile_append]
      split
      · rename_i hall
        rw [List.takeWhile_cons_of_neg (by decide), List.append_nil,
          (List.takeWhile_prefix _).eq_of_length hall]
      · rfl
  unfold shownSlot?
  rw [hdigits]

/-- The slots on the lines of a text are those on the texts that it was joined from. -/
theorem map_shownSlot?_linesOf_join (h : ∀ s ∈ ls, IsLine s) :
    (linesOf (String.join ls)).map shownSlot? = ls.map shownSlot? := by
  calc (linesOf (String.join ls)).map shownSlot?
    _ = (linesOf (String.join ls)).map fun l => shownSlot? (l ++ "\n") :=
      List.map_congr_left fun l _ => (shownSlot?_newline l).symm
    _ = ((linesOf (String.join ls)).map fun l => l ++ "\n").map shownSlot? := by
      rw [List.map_map]
      rfl
    _ = ls.map shownSlot? := by rw [linesOf_join h]

theorem unbroken_toJsonAt (slot : Nat) (e : Entry) : Unbroken (e.toJsonAt slot) := by
  intro hmem
  have hle : 0x20 ≤ '\n'.toNat := Entry.le_toNat_of_mem_toJsonAt hmem
  revert hle
  decide

theorem isLine_entryJsonLine (slot : Nat) (e : Entry) : IsLine (entryJsonLine slot e) :=
  ⟨e.toJsonAt slot, unbroken_toJsonAt slot e, rfl⟩

end ReplicaStore.CommandLine
