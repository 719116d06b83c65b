import ReplicaStore.Json.Text
import ReplicaStore.Json.Value

/-! # Written objects read back

    An object whose values are strings and whole numbers is read as what was written: a string comes
    back with every character, whether it was escaped or not, and a number with every digit. What is
    written holds no control character, so it stands on one line.

    * `readString_flatMap_escape`: a string reads back, whatever follows it.
    * `readNumber_ofNat`: a number reads back, where something follows that is no part of it.
    * `parse?_write`: an object reads back.
    * `le_toNat_of_mem_write`: an object holds no control character. -/

namespace ReplicaStore.Json

/-! ## Strings -/

theorem hexDigit?_codeDigit {n : Nat} (h : n < 16) : hexDigit? (codeDigit n) = some n := by
  have hall : ∀ n : Fin 16, hexDigit? (codeDigit n) = some n.val := by decide
  exact hall ⟨n, h⟩

/-- The code of a control character is written in four digits, the first two of which are zeros. -/
theorem hexCode?_codeDigit {n : Nat} (h : n < 0x20) :
    hexCode? '0' '0' (codeDigit (n / 16)) (codeDigit (n % 16)) = some n := by
  have hzero : hexDigit? '0' = some 0 := by decide
  have hhigh : hexDigit? (codeDigit (n / 16)) = some (n / 16) := hexDigit?_codeDigit (by omega)
  have hlow : hexDigit? (codeDigit (n % 16)) = some (n % 16) := hexDigit?_codeDigit (by omega)
  simp only [hexCode?, hzero, hhigh, hlow, Option.bind_eq_bind, Option.bind_some]
  show some _ = some n
  congr 1
  omega

theorem ofCode_toNat {c : Char} (h : c.toNat < 0x20) : Piece.ofCode c.toNat = .char c := by
  unfold Piece.ofCode
  rw [if_neg (by omega), Char.ofNat_toNat]

variable {rest : List Char}

/-- One more character in front of a string that is read. -/
def withPiece (c : Char) (r : List Piece × List Char) : List Piece × List Char :=
  (.char c :: r.1, r.2)

theorem readString_shortEscape {e c : Char} (hcode : e ≠ 'u') (hshort : shortEscape? e = some c)
    (rest : List Char) :
    readString ('\\' :: e :: rest) = (readString rest).map (withPiece c) := by
  rw [readString]
  · rw [hshort]
    cases readString rest with
    | none => rfl
    | some r => rfl
  · intro a b c' d tail he
    exact absurd he hcode

theorem readString_code {a b c d : Char} {ch : Char} (hcode : hexCode? a b c d = some ch.toNat)
    (hpiece : Piece.ofCode ch.toNat = .char ch) (rest : List Char) :
    readString ('\\' :: 'u' :: a :: b :: c :: d :: rest) =
      (readString rest).map (withPiece ch) := by
  rw [readString, hcode]
  cases readString rest with
  | none => rfl
  | some r =>
    show some (Piece.ofCode ch.toNat :: r.1, r.2) = _
    rw [hpiece]
    rfl

theorem readString_plain {c : Char} (hquote : c ≠ quote) (hescape : c ≠ '\\')
    (hcontrol : ¬ c.toNat < 0x20) (rest : List Char) :
    readString (c :: rest) = (readString rest).map (withPiece c) := by
  rw [readString]
  · rw [if_neg hquote, if_neg (by simp [hcontrol, hescape])]
    cases readString rest with
    | none => rfl
    | some r => rfl
  · intro a b c' d tail he
    exact absurd he hescape
  · intro e tail he
    exact absurd he hescape

/-- A character is written as a backslash and the letter for it, or by its code if it is another
    control character, or as itself. -/
theorem escape_cases (c : Char) :
    (∃ e, e ≠ 'u' ∧ 0x20 ≤ e.toNat ∧ shortEscape? e = some c ∧ escape c = ['\\', e]) ∨
    (c.toNat < 0x20 ∧
      escape c = ['\\', 'u', '0', '0', codeDigit (c.toNat / 16), codeDigit (c.toNat % 16)]) ∨
    (c ≠ quote ∧ c ≠ '\\' ∧ ¬ c.toNat < 0x20 ∧ escape c = [c]) := by
  by_cases hshort : c = quote ∨ c = '\\' ∨ c = '\x08' ∨ c = '\x0c' ∨ c = '\n' ∨ c = '\r' ∨ c = '\t'
  · rcases hshort with rfl | rfl | rfl | rfl | rfl | rfl | rfl
    · exact .inl ⟨quote, by decide, by decide, rfl, rfl⟩
    · exact .inl ⟨'\\', by decide, by decide, rfl, rfl⟩
    · exact .inl ⟨'b', by decide, by decide, rfl, rfl⟩
    · exact .inl ⟨'f', by decide, by decide, rfl, rfl⟩
    · exact .inl ⟨'n', by decide, by decide, rfl, rfl⟩
    · exact .inl ⟨'r', by decide, by decide, rfl, rfl⟩
    · exact .inl ⟨'t', by decide, by decide, rfl, rfl⟩
  · -- What is left are other control characters, and characters that stand for themselves.
    simp only [not_or] at hshort
    obtain ⟨hquote, hescape, hb, hf, hn, hr, ht⟩ := hshort
    unfold escape
    rw [if_neg (by simp [hquote, hescape]), if_neg hb, if_neg hf, if_neg hn, if_neg hr, if_neg ht]
    by_cases hcontrol : c.toNat < 0x20
    · exact .inr (.inl ⟨hcontrol, if_pos hcontrol⟩)
    · exact .inr (.inr ⟨hquote, hescape, hcontrol, if_neg hcontrol⟩)

/-- A character reads back, in whichever of its forms it was written. -/
theorem readString_escape (c : Char) (rest : List Char) :
    readString (escape c ++ rest) = (readString rest).map (withPiece c) := by
  rcases escape_cases c with ⟨e, hcode, -, hshort, he⟩ | ⟨hcontrol, he⟩ |
    ⟨hquote, hescape, hcontrol, he⟩
  · rw [he]
    exact readString_shortEscape hcode hshort rest
  · rw [he]
    exact readString_code (hexCode?_codeDigit hcontrol) (ofCode_toNat hcontrol) rest
  · rw [he]
    exact readString_plain hquote hescape hcontrol rest

/-- A string reads back up to its closing quote, whatever follows. -/
theorem readString_flatMap_escape (cs rest : List Char) :
    readString (cs.flatMap escape ++ quote :: rest) = some (cs.map .char, rest) := by
  induction cs with
  | nil =>
    rw [List.flatMap_nil, List.nil_append, readString]
    · rw [if_pos rfl]
      rfl
    · intro a b c' d tail he
      cases he
    · intro e tail he
      cases he
  | cons c cs ih =>
    rw [List.flatMap_cons, List.append_assoc, readString_escape, ih]
    rfl

theorem joinHalves_map_char (cs : List Char) : joinHalves (cs.map .char) = some cs := by
  induction cs with
  | nil => rfl
  | cons c cs ih =>
    rw [List.map_cons, joinHalves, ih]
    rfl

theorem readToken_writeString (s : String) (rest : List Char) :
    readToken (writeString s ++ rest) = some (.string (some s), rest) := by
  have hread := readString_flatMap_escape s.toList rest
  have hshape : writeString s ++ rest =
      '\x22' :: (s.toList.flatMap escape ++ quote :: rest) := by
    simp [writeString, quote]
  have hjoin := joinHalves_map_char s.toList
  rw [hshape, readToken, hread]
  simp only [Option.map_some, hjoin, String.ofList_toList]

/-! ## Numbers -/

/-- Whether what follows ends the value of a member: a comma or the end of the object. -/
def EndsValue (rest : List Char) : Prop :=
  ∃ c cs, rest = c :: cs ∧ (c = ',' ∨ c = '\x7d')

theorem isDigit_digit {n : Nat} (h : n < 10) : Decimal.isDigit (Decimal.digit n) = true := by
  unfold Decimal.isDigit
  rw [Decimal.digit?_digit h]
  rfl

theorem isDigit_of_mem_ofNat {n : Nat} {c : Char} (h : c ∈ Decimal.ofNat n) :
    Decimal.isDigit c = true := by
  fun_induction Decimal.ofNat n with
  | case1 n hn =>
    rw [List.mem_singleton.1 h]
    exact isDigit_digit hn
  | case2 n hn ih =>
    rcases List.mem_append.1 h with hinit | hlast
    · exact ih hinit
    · rw [List.mem_singleton.1 hlast]
      exact isDigit_digit (Nat.mod_lt n (by decide))

/-- The first digit of a number that is not zero is none. -/
theorem exists_ofNat_eq_cons {n : Nat} (h : 0 < n) :
    ∃ d ds, 0 < d ∧ d < 10 ∧ Decimal.ofNat n = Decimal.digit d :: ds := by
  fun_induction Decimal.ofNat n with
  | case1 n hn => exact ⟨n, [], h, hn, rfl⟩
  | case2 n hn ih =>
    obtain ⟨d, ds, hpos, hd, hds⟩ := ih (by omega)
    exact ⟨d, ds ++ [Decimal.digit (n % 10)], hpos, hd, by rw [hds]; rfl⟩

theorem digit_ne_zero {d : Nat} (hpos : 0 < d) (hd : d < 10) : Decimal.digit d ≠ '0' := by
  have hall : ∀ d : Fin 10, 0 < d.val → Decimal.digit d ≠ '0' := by decide
  exact hall ⟨d, hd⟩ hpos

theorem readDigits_ofNat (n : Nat) (hends : EndsValue rest) :
    readDigits (Decimal.ofNat n ++ rest) = some (Decimal.ofNat n, rest) := by
  obtain ⟨c, cs, rfl, hc⟩ := hends
  have hstop : Decimal.isDigit c = false := by
    rcases hc with rfl | rfl <;> rfl
  have hall : ∀ d ∈ Decimal.ofNat n, Decimal.isDigit d = true := fun d => isDigit_of_mem_ofNat
  have htake : (Decimal.ofNat n ++ c :: cs).takeWhile Decimal.isDigit = Decimal.ofNat n := by
    rw [List.takeWhile_append_of_pos hall, List.takeWhile_cons_of_neg (by simp [hstop]),
      List.append_nil]
  have hdrop : (Decimal.ofNat n ++ c :: cs).dropWhile Decimal.isDigit = c :: cs := by
    rw [List.dropWhile_append_of_pos hall, List.dropWhile_cons_of_neg (by simp [hstop])]
  unfold readDigits
  rw [htake, hdrop]
  cases hofNat : Decimal.ofNat n with
  | nil => exact absurd hofNat (Decimal.ofNat_ne_nil n)
  | cons d ds => rfl

theorem readWhole_ofNat (n : Nat) (hends : EndsValue rest) :
    readWhole (Decimal.ofNat n ++ rest) = some (n, rest) := by
  rcases Nat.eq_zero_or_pos n with rfl | hpos
  · rw [Decimal.ofNat, if_pos (by decide)]
    rfl
  · obtain ⟨d, ds, hd, hlt, hds⟩ := exists_ofNat_eq_cons hpos
    have hread := readDigits_ofNat n hends
    have hnat := Decimal.nat?_ofNat n
    -- The first digit is no zero, so all digits belong to the number.
    rw [readWhole]
    · rw [hread]
      simp only [Option.bind_eq_bind, Option.bind_some, hnat]
      rfl
    · intro tail hzero
      rw [hds] at hzero
      injection hzero with hfirst _
      exact digit_ne_zero hd hlt hfirst

/-- A number reads back with its sign, unless it is a zero with one. -/
theorem readNumber_ofNat (negative : Bool) (n : Nat) (hsign : negative = true → n ≠ 0)
    (hends : EndsValue rest) :
    readNumber negative (Decimal.ofNat n ++ rest) =
      some (.number (some (if negative then -(n : Int) else n)), rest) := by
  have hwhole := readWhole_ofNat n hends
  obtain ⟨c, cs, rfl, hc⟩ := hends
  have hfraction : skipFraction (c :: cs) = some (false, c :: cs) := by
    rcases hc with rfl | rfl <;> rfl
  have hexponent : skipExponent (c :: cs) = some (false, c :: cs) := by
    rcases hc with rfl | rfl <;> rfl
  simp only [readNumber, hwhole, hfraction, hexponent, Option.bind_eq_bind, Option.bind_some]
  cases negative with
  | false => rfl
  | true => simp [hsign rfl]

theorem readToken_digit {d : Nat} (hd : d < 10) (rest : List Char) :
    readToken (Decimal.digit d :: rest) = readNumber false (Decimal.digit d :: rest) := by
  -- No digit starts a token of another kind.
  have hcases : d = 0 ∨ d = 1 ∨ d = 2 ∨ d = 3 ∨ d = 4 ∨ d = 5 ∨ d = 6 ∨ d = 7 ∨ d = 8 ∨ d = 9 := by
    omega
  rcases hcases with rfl | rfl | rfl | rfl | rfl | rfl | rfl | rfl | rfl | rfl <;> rfl

theorem exists_digit_of_ofNat (n : Nat) :
    ∃ d ds, d < 10 ∧ Decimal.ofNat n = Decimal.digit d :: ds := by
  rcases Nat.eq_zero_or_pos n with rfl | hpos
  · exact ⟨0, [], by decide, by rw [Decimal.ofNat, if_pos (by decide)]⟩
  · obtain ⟨d, ds, -, hd, hds⟩ := exists_ofNat_eq_cons hpos
    exact ⟨d, ds, hd, hds⟩

theorem readToken_ofInt (z : Int) (hends : EndsValue rest) :
    readToken (Decimal.ofInt z ++ rest) = some (.number (some z), rest) := by
  unfold Decimal.ofInt
  by_cases hneg : z < 0
  · -- A number below zero is no zero, so its sign does not spoil it.
    have hread := readNumber_ofNat true z.natAbs (by omega) hends
    rw [if_pos hneg, List.cons_append]
    show readNumber true _ = _
    rw [hread, if_pos rfl]
    have hz : -(z.natAbs : Int) = z := by omega
    rw [hz]
  · have hread := readNumber_ofNat false z.natAbs (by simp) hends
    obtain ⟨d, ds, hd, hds⟩ := exists_digit_of_ofNat z.natAbs
    rw [hds, List.cons_append] at hread
    rw [if_neg hneg, hds, List.cons_append, readToken_digit hd, hread, if_neg Bool.false_ne_true]
    have hz : (z.natAbs : Int) = z := by omega
    rw [hz]

/-! ## Objects -/

/-- The value of a member: a string or a whole number. -/
inductive Scalar where
  | text (s : String)
  | whole (z : Int)
deriving DecidableEq, Repr

namespace Scalar

def write : Scalar → List Char
  | .text s => writeString s
  | .whole z => Decimal.ofInt z

def token : Scalar → Token
  | .text s => .string (some s)
  | .whole z => .number (some z)

def value : Scalar → Value
  | .text s => .string (some s)
  | .whole z => .number (some z)

end Scalar

structure Member where
  name : String
  scalar : Scalar
deriving DecidableEq, Repr

namespace Member

def write (m : Member) : List Char :=
  writeMember m.name m.scalar.write

def tokens (m : Member) : List Token :=
  [.string (some m.name), .colon, m.scalar.token]

def read (m : Member) : Option String × Value :=
  (some m.name, m.scalar.value)

end Member

/-- The tokens of members with commas between them. -/
def memberTokens : List Member → List Token
  | [] => []
  | [m] => m.tokens
  | m :: ms => m.tokens ++ .comma :: memberTokens ms

theorem tokens?_of_readToken {c : Char} {cs : List Char} {t : Token} (hblank : isBlank c = false)
    (h : readToken (c :: cs) = some (t, rest)) :
    tokens? (c :: cs) = (tokens? rest).map (t :: ·) := by
  rw [tokens?, if_neg (by simp [hblank])]
  split
  · rename_i hnone
    rw [h] at hnone
    cases hnone
  · rename_i t' rest' hsome
    rw [h] at hsome
    cases hsome
    rfl

theorem tokens?_writeString (s : String) (rest : List Char) :
    tokens? (writeString s ++ rest) = (tokens? rest).map (.string (some s) :: ·) := by
  have hread := readToken_writeString s rest
  exact tokens?_of_readToken rfl hread

theorem isBlank_digit {d : Nat} (hd : d < 10) : isBlank (Decimal.digit d) = false := by
  have hall : ∀ d : Fin 10, isBlank (Decimal.digit d) = false := by decide
  exact hall ⟨d, hd⟩

theorem tokens?_ofInt (z : Int) (hends : EndsValue rest) :
    tokens? (Decimal.ofInt z ++ rest) = (tokens? rest).map (.number (some z) :: ·) := by
  have hread := readToken_ofInt z hends
  obtain ⟨c, cs, hc, hshape⟩ : ∃ c cs, isBlank c = false ∧ Decimal.ofInt z = c :: cs := by
    unfold Decimal.ofInt
    split
    · exact ⟨'-', _, rfl, rfl⟩
    · obtain ⟨d, ds, hd, hds⟩ := exists_digit_of_ofNat z.natAbs
      exact ⟨Decimal.digit d, ds, isBlank_digit hd, hds⟩
  rw [hshape, List.cons_append] at hread ⊢
  exact tokens?_of_readToken hc hread

theorem tokens?_scalar (v : Scalar) (hends : EndsValue rest) :
    tokens? (v.write ++ rest) = (tokens? rest).map (v.token :: ·) := by
  cases v with
  | text s => exact tokens?_writeString s rest
  | whole z => exact tokens?_ofInt z hends

theorem tokens?_member (m : Member) (hends : EndsValue rest) :
    tokens? (m.write ++ rest) = (tokens? rest).map (m.tokens ++ ·) := by
  have hshape : m.write ++ rest = writeString m.name ++ ':' :: (m.scalar.write ++ rest) := by
    simp [Member.write, writeMember]
  have hcolon : tokens? (':' :: (m.scalar.write ++ rest)) =
      (tokens? (m.scalar.write ++ rest)).map (.colon :: ·) :=
    tokens?_of_readToken rfl rfl
  rw [hshape, tokens?_writeString, hcolon, tokens?_scalar m.scalar hends, Option.map_map,
    Option.map_map]
  rfl

/-- What is written between the braces of an object falls into the tokens of its members. -/
theorem tokens?_joinMembers (ms : List Member) :
    tokens? (joinMembers (ms.map Member.write) ++ ['\x7d']) =
      some (memberTokens ms ++ [Token.objectClose]) := by
  have hclose : tokens? ['\x7d'] = some [Token.objectClose] := by
    rw [tokens?_of_readToken rfl rfl, tokens?]
    rfl
  -- What follows a member is a comma or the closing brace, so its value ends there.
  induction ms with
  | nil => exact hclose
  | cons m ms ih =>
    cases ms with
    | nil =>
      show tokens? (m.write ++ ['\x7d']) = _
      rw [tokens?_member m ⟨'\x7d', [], rfl, .inr rfl⟩, hclose]
      rfl
    | cons m' ms =>
      have hcomma : tokens? (',' :: (joinMembers ((m' :: ms).map Member.write) ++ ['\x7d'])) =
          some (.comma :: (memberTokens (m' :: ms) ++ [Token.objectClose])) := by
        rw [tokens?_of_readToken rfl rfl, ih]
        rfl
      have hshape : joinMembers ((m :: m' :: ms).map Member.write) ++ ['\x7d'] =
          m.write ++ ',' :: (joinMembers ((m' :: ms).map Member.write) ++ ['\x7d']) := by
        show (m.write ++ ',' :: joinMembers ((m' :: ms).map Member.write)) ++ _ = _
        rw [List.append_assoc, List.cons_append]
      rw [hshape, tokens?_member m ⟨',', _, rfl, .inl rfl⟩, hcomma]
      show some (m.tokens ++ .comma :: (memberTokens (m' :: ms) ++ [Token.objectClose])) =
        some ((m.tokens ++ .comma :: memberTokens (m' :: ms)) ++ [Token.objectClose])
      rw [List.append_assoc, List.cons_append]

/-! ### Reading the tokens

    A member takes the state from its name to its value; after it the object goes on or ends. -/

theorem foldlM_member (m : Member) (read : List (Option String × Value)) (mayClose : Bool)
    (ts : List Token) :
    (m.tokens ++ ts).foldlM State.step (.name read [] mayClose) =
      ts.foldlM State.step (.done m.scalar.value [.object read (some m.name)]) := by
  obtain ⟨name, v⟩ := m
  cases v with
  | text s => rfl
  | whole z => rfl

theorem foldlM_memberTokens (m : Member) (ms : List Member) (read : List (Option String × Value))
    (mayClose : Bool) :
    (memberTokens (m :: ms) ++ [Token.objectClose]).foldlM State.step (.name read [] mayClose) =
      some (.done (.object (read ++ (m :: ms).map Member.read)) []) := by
  -- The members read so far grow with each step, so the claim is made for all of them.
  induction ms generalizing m read mayClose with
  | nil =>
    show (m.tokens ++ [Token.objectClose]).foldlM State.step _ = _
    rw [foldlM_member]
    rfl
  | cons m' ms ih =>
    have hshape : memberTokens (m :: m' :: ms) ++ [Token.objectClose] =
        m.tokens ++ (.comma :: (memberTokens (m' :: ms) ++ [Token.objectClose])) := by
      show (m.tokens ++ .comma :: memberTokens (m' :: ms)) ++ _ = _
      rw [List.append_assoc, List.cons_append]
    rw [hshape, foldlM_member]
    show (memberTokens (m' :: ms) ++ [Token.objectClose]).foldlM State.step
      (.name (read ++ [m.read]) [] false) = _
    rw [ih, List.append_assoc]
    rfl

/-- An object of strings and whole numbers reads back with all its members, in their order. -/
theorem parse?_write (ms : List Member) :
    Value.parse? (String.ofList (writeObject (ms.map Member.write))) =
      some (.object (ms.map Member.read)) := by
  have htokens : tokens? (writeObject (ms.map Member.write)) =
      some (.objectOpen :: (memberTokens ms ++ [Token.objectClose])) := by
    show tokens? ('\x7b' :: (joinMembers (ms.map Member.write) ++ ['\x7d'])) = _
    rw [tokens?_of_readToken rfl rfl, tokens?_joinMembers]
    rfl
  have hfold : (Token.objectOpen :: (memberTokens ms ++ [Token.objectClose])).foldlM State.step
      State.start = some (.done (.object (ms.map Member.read)) []) := by
    show (memberTokens ms ++ [Token.objectClose]).foldlM State.step (.name [] [] true) = _
    cases ms with
    | nil => rfl
    | cons m ms => exact foldlM_memberTokens m ms [] true
  unfold Value.parse?
  rw [String.toList_ofList, htokens, Option.bind_some, Value.ofTokens?, hfold]

/-! ## No control characters -/

theorem le_toNat_codeDigit {n : Nat} (h : n < 16) : 0x20 ≤ (codeDigit n).toNat := by
  have hall : ∀ n : Fin 16, 0x20 ≤ (codeDigit n).toNat := by decide
  exact hall ⟨n, h⟩

theorem le_toNat_of_mem_escape {c d : Char} (h : d ∈ escape c) : 0x20 ≤ d.toNat := by
  rcases escape_cases c with ⟨e, -, hle, -, he⟩ | ⟨hcontrol, he⟩ | ⟨-, -, hcontrol, he⟩
  · rw [he] at h
    rcases List.mem_cons.1 h with rfl | hd
    · decide
    · rw [List.mem_singleton.1 hd]
      exact hle
  · have hhigh : 0x20 ≤ (codeDigit (c.toNat / 16)).toNat := le_toNat_codeDigit (by omega)
    have hlow : 0x20 ≤ (codeDigit (c.toNat % 16)).toNat := le_toNat_codeDigit (by omega)
    rw [he] at h
    simp only [List.mem_cons, List.not_mem_nil, or_false] at h
    rcases h with rfl | rfl | rfl | rfl | rfl | rfl
    iterate 4 decide
    · exact hhigh
    · exact hlow
  · rw [he] at h
    rw [List.mem_singleton.1 h]
    exact Nat.le_of_not_lt hcontrol

theorem le_toNat_of_mem_writeString {s : String} {d : Char} (h : d ∈ writeString s) :
    0x20 ≤ d.toNat := by
  simp only [writeString, List.mem_append, List.mem_cons, List.mem_flatMap, List.not_mem_nil,
    or_false] at h
  rcases h with (rfl | ⟨c, -, hd⟩) | rfl
  · decide
  · exact le_toNat_of_mem_escape hd
  · decide

theorem le_toNat_of_isDigit {d : Char} (h : Decimal.isDigit d = true) : 0x20 ≤ d.toNat := by
  unfold Decimal.isDigit Decimal.digit? at h
  split at h
  · rename_i hrange
    omega
  · cases h

theorem le_toNat_of_mem_ofInt {z : Int} {d : Char} (h : d ∈ Decimal.ofInt z) : 0x20 ≤ d.toNat := by
  have hdigits : d ∈ Decimal.ofNat z.natAbs → 0x20 ≤ d.toNat := fun hd =>
    le_toNat_of_isDigit (isDigit_of_mem_ofNat hd)
  unfold Decimal.ofInt at h
  split at h
  · rcases List.mem_cons.1 h with rfl | hd
    · decide
    · exact hdigits hd
  · exact hdigits h

theorem le_toNat_of_mem_member {m : Member} {d : Char} (h : d ∈ m.write) : 0x20 ≤ d.toNat := by
  obtain ⟨name, v⟩ := m
  simp only [Member.write, writeMember, List.mem_append, List.mem_cons] at h
  rcases h with hname | rfl | hvalue
  · exact le_toNat_of_mem_writeString hname
  · decide
  · cases v with
    | text s => exact le_toNat_of_mem_writeString hvalue
    | whole z => exact le_toNat_of_mem_ofInt hvalue

theorem le_toNat_of_mem_joinMembers {ms : List Member} {d : Char}
    (h : d ∈ joinMembers (ms.map Member.write)) : 0x20 ≤ d.toNat := by
  induction ms with
  | nil => cases h
  | cons m ms ih =>
    cases ms with
    | nil => exact le_toNat_of_mem_member h
    | cons m' ms =>
      rcases List.mem_append.1 h with hm | hrest
      · exact le_toNat_of_mem_member hm
      · rcases List.mem_cons.1 hrest with rfl | hd
        · decide
        · exact ih hd

/-- An object holds no control character. -/
theorem le_toNat_of_mem_write {ms : List Member} {d : Char}
    (h : d ∈ writeObject (ms.map Member.write)) : 0x20 ≤ d.toNat := by
  simp only [writeObject, List.mem_append, List.mem_cons, List.not_mem_nil, or_false] at h
  rcases h with (rfl | hd) | rfl
  · decide
  · exact le_toNat_of_mem_joinMembers hd
  · decide

end ReplicaStore.Json
