import ReplicaStore.Text.Utf8

/-! # Laws of UTF-8

    Main statements: what is written reads back (`decode_encode`), a byte string that reads as text
    is the one written for it (`encode_of_decode`), and so a byte string is text in at most one way
    (`decode_eq_ok_iff`). -/

namespace ReplicaStore.Utf8

/-! ## Characters and bytes -/

theorem toNat_ofNat_byte {n : Nat} (h : n < 256) : (UInt8.ofNat n).toNat = n := by
  simpa using h

/-- The numbers of characters leave the surrogates out. -/
theorem toNat_range (c : Char) : c.toNat < 0xD800 ∨ (0xDFFF < c.toNat ∧ c.toNat < 0x110000) :=
  c.valid

theorem toNat_ofNat_char {n : Nat} (h : n < 0xD800 ∨ (0xDFFF < n ∧ n < 0x110000)) :
    (Char.ofNat n).toNat = n := by
  rw [Char.ofNat, dif_pos h]
  rfl

theorem ofNat_toNat_char (c : Char) : Char.ofNat c.toNat = c := by
  apply Char.toNat_inj.1
  exact toNat_ofNat_char (toNat_range c)

/-! ## What a lead byte promises -/

theorem lead?_two {n : Nat} (hlow : 2 ≤ n) (hhigh : n < 0x20) :
    lead? (0xC0 + n) = some ⟨1, n, 0x80, 0xBF⟩ := by
  grind [lead?]

/-- The lead byte of three, with the range that it leaves for the next byte. -/
theorem lead?_three {n : Nat} (h : n < 0x10) :
    lead? (0xE0 + n) =
      some ⟨2, n, if n = 0 then 0xA0 else 0x80, if n = 0xD then 0x9F else 0xBF⟩ := by
  grind [lead?]

/-- The lead byte of four, with the range that it leaves for the next byte. -/
theorem lead?_four {n : Nat} (h : n < 5) :
    lead? (0xF0 + n) =
      some ⟨3, n, if n = 0 then 0x90 else 0x80, if n = 4 then 0x8F else 0xBF⟩ := by
  grind [lead?]

/-- Every promise is one of two, three or four bytes. -/
theorem lead?_cases {b : Nat} {l : Lead} (h : lead? b = some l) :
    (∃ n, 2 ≤ n ∧ n < 0x20 ∧ b = 0xC0 + n) ∨ (∃ n, n < 0x10 ∧ b = 0xE0 + n) ∨
      (∃ n, n < 5 ∧ b = 0xF0 + n) := by
  have hb : 0xC2 ≤ b ∧ b ≤ 0xF4 := by grind [lead?]
  -- The bytes 0xC0 and 0xC1 promise nothing, which is why a promise of two has `2 ≤ n`.
  by_cases h2 : b < 0xE0
  · exact .inl ⟨b - 0xC0, by omega, by omega, by omega⟩
  · by_cases h3 : b < 0xF0
    · exact .inr (.inl ⟨b - 0xE0, by omega, by omega⟩)
    · exact .inr (.inr ⟨b - 0xF0, by omega, by omega⟩)

/-! ## Writing, then reading -/

theorem readMore_zero (seen bits low high : Nat) (bs : Bytes) :
    readMore seen bits low high 0 bs = .char (Char.ofNat bits) seen := rfl

theorem readMore_succ {seen bits low high more n : Nat} {bs : Bytes} (hn : n < 256)
    (hlow : low ≤ n) (hhigh : n ≤ high) :
    readMore seen bits low high (more + 1) (UInt8.ofNat n :: bs) =
      readMore (seen + 1) (bits * 64 + (n - 0x80)) 0x80 0xBF more bs := by
  rw [readMore, toNat_ofNat_byte hn, if_pos ⟨hlow, hhigh⟩]

theorem firstPart_of_lt {b : UInt8} (bs : Bytes) (h : b.toNat < 0x80) :
    firstPart b bs = .char (Char.ofNat b.toNat) 1 := by
  rw [firstPart, if_pos h]

theorem firstPart_of_lead {n more bits low high : Nat} (bs : Bytes) (hn : n < 256)
    (h : lead? n = some ⟨more, bits, low, high⟩) :
    firstPart (UInt8.ofNat n) bs = readMore 1 bits low high more bs := by
  have hbig : ¬ n < 0x80 := by grind [lead?]
  rw [firstPart, toNat_ofNat_byte hn, if_neg hbig, h]

theorem parts_of_firstPart {b : UInt8} {bs : Bytes} {part : Part} (h : firstPart b bs = part) :
    parts (b :: bs) = part :: parts (bs.drop (part.size - 1)) := by
  rw [parts, h]

/-- The bytes of a character start a byte string with that character. -/
theorem parts_encodeChar_append (c : Char) (bs : Bytes) :
    parts (encodeChar c ++ bs) = .char c (encodeChar c).length :: parts bs := by
  have hrange := toNat_range c
  have hc := ofNat_toNat_char c
  simp only [encodeChar]
  generalize c.toNat = n at hrange hc
  subst hc
  -- One case for each number of bytes. In each, the bits that the bytes carry add up to `n` again.
  split
  · have hn : (UInt8.ofNat n).toNat = n := toNat_ofNat_byte (by omega)
    have hfirst := firstPart_of_lt (b := UInt8.ofNat n) bs (by omega)
    rw [hn] at hfirst
    exact parts_of_firstPart hfirst
  · split
    · have hfirst := firstPart_of_lead (UInt8.ofNat (0x80 + n % 64) :: bs)
        (show 0xC0 + n / 64 < 256 by omega) (lead?_two (show 2 ≤ n / 64 by omega) (by omega))
      rw [readMore_succ (by omega) (by omega) (by omega), readMore_zero,
        show n / 64 * 64 + (0x80 + n % 64 - 0x80) = n by omega] at hfirst
      exact parts_of_firstPart hfirst
    · split
      · have hfirst := firstPart_of_lead
          (UInt8.ofNat (0x80 + n / 64 % 64) :: UInt8.ofNat (0x80 + n % 64) :: bs)
          (show 0xE0 + n / 4096 < 256 by omega) (lead?_three (show n / 4096 < 0x10 by omega))
        rw [readMore_succ (by omega) (by split <;> omega) (by split <;> omega),
          readMore_succ (by omega) (by omega) (by omega), readMore_zero,
          show (n / 4096 * 64 + (0x80 + n / 64 % 64 - 0x80)) * 64 + (0x80 + n % 64 - 0x80) = n by
            omega] at hfirst
        exact parts_of_firstPart hfirst
      · have hfirst := firstPart_of_lead
          (UInt8.ofNat (0x80 + n / 4096 % 64) :: UInt8.ofNat (0x80 + n / 64 % 64) ::
            UInt8.ofNat (0x80 + n % 64) :: bs)
          (show 0xF0 + n / 262144 < 256 by omega) (lead?_four (show n / 262144 < 5 by omega))
        rw [readMore_succ (by omega) (by split <;> omega) (by split <;> omega),
          readMore_succ (by omega) (by omega) (by omega),
          readMore_succ (by omega) (by omega) (by omega), readMore_zero,
          show ((n / 262144 * 64 + (0x80 + n / 4096 % 64 - 0x80)) * 64 +
              (0x80 + n / 64 % 64 - 0x80)) * 64 + (0x80 + n % 64 - 0x80) = n by omega] at hfirst
        exact parts_of_firstPart hfirst

/-- The parts of an encoded text are its characters. -/
theorem parts_encode (cs : List Char) :
    parts (encode cs) = cs.map fun c => .char c (encodeChar c).length := by
  induction cs with
  | nil => simp [parts]
  | cons c cs ih => rw [encode_cons, parts_encodeChar_append, ih, List.map_cons]

theorem ofParts_map_char (index : Nat) (size : Char → Nat) (cs : List Char) :
    ofParts index (cs.map fun c => .char c (size c)) = .ok cs := by
  induction cs generalizing index with
  | nil => rfl
  | cons c cs ih => simp [ofParts, ih, Except.map]

/-- What is written reads back. -/
@[simp] theorem decode_encode (cs : List Char) : decode (encode cs) = .ok cs := by
  rw [decode, parts_encode, ofParts_map_char]

@[simp] theorem decodeText_encodeText (s : String) : decodeText (encodeText s) = .ok s := by
  simp [decodeText, encodeText, Except.map]

/-! ## Reading, then writing -/

/-- A character of which more bytes are to come has its next byte in the range. -/
theorem exists_of_readMore_succ {seen bits low high more : Nat} {bs : Bytes} {c : Char} {size : Nat}
    (h : readMore seen bits low high (more + 1) bs = .char c size) :
    ∃ b rest, bs = b :: rest ∧ low ≤ b.toNat ∧ b.toNat ≤ high ∧
      readMore (seen + 1) (bits * 64 + (b.toNat - 0x80)) 0x80 0xBF more rest = .char c size := by
  cases bs with
  | nil => simp [readMore] at h
  | cons b rest =>
    rw [readMore] at h
    split at h
    · rename_i hb
      exact ⟨b, rest, rfl, hb.1, hb.2, h⟩
    · simp at h

theorem ofNat_eq_of_eq_toNat {n : Nat} {b : UInt8} (h : n = b.toNat) : UInt8.ofNat n = b := by
  rw [h, UInt8.ofNat_toNat]

/-- A byte string that starts with a character starts with the bytes of that character. -/
theorem eq_encodeChar_append_of_firstPart {b : UInt8} {bs : Bytes} {c : Char} {size : Nat}
    (h : firstPart b bs = .char c size) : b :: bs = encodeChar c ++ bs.drop (size - 1) := by
  have hlt : b.toNat < 256 := b.toNat_lt
  rw [firstPart] at h
  split at h
  · rename_i hsmall
    obtain ⟨rfl, rfl⟩ := Part.char.inj h
    have hn : (Char.ofNat b.toNat).toNat = b.toNat := toNat_ofNat_char (by omega)
    rw [encodeChar, hn, if_pos hsmall, UInt8.ofNat_toNat]
    rfl
  · split at h
    · simp at h
    · rename_i l hl
      -- The same cases backwards: the ranges of the lead and of the byte after it are what rules
      -- out a longer encoding than needed, a surrogate, and a number past the last character.
      rcases lead?_cases hl with ⟨n, hlow, hhigh, hbn⟩ | ⟨n, hn, hbn⟩ | ⟨n, hn, hbn⟩
      · rw [hbn, lead?_two hlow hhigh] at hl
        obtain rfl := Option.some.inj hl
        obtain ⟨b₁, rest, rfl, h₁, h₁', h⟩ := exists_of_readMore_succ h
        obtain ⟨rfl, rfl⟩ := Part.char.inj h
        simp only at h₁ h₁'
        have hm := toNat_ofNat_char (n := n * 64 + (b₁.toNat - 0x80)) (by omega)
        rw [encodeChar, hm, if_neg (by omega), if_pos (by omega),
          ofNat_eq_of_eq_toNat (b := b) (by omega), ofNat_eq_of_eq_toNat (b := b₁) (by omega)]
        rfl
      · rw [hbn, lead?_three hn] at hl
        obtain rfl := Option.some.inj hl
        obtain ⟨b₁, rest, rfl, h₁, h₁', h⟩ := exists_of_readMore_succ h
        obtain ⟨b₂, rest, rfl, h₂, h₂', h⟩ := exists_of_readMore_succ h
        obtain ⟨rfl, rfl⟩ := Part.char.inj h
        have hlow : 0x80 ≤ b₁.toNat ∧ (n = 0 → 0xA0 ≤ b₁.toNat) := by
          simp only at h₁
          split at h₁ <;> omega
        have hhigh : b₁.toNat ≤ 0xBF ∧ (n = 0xD → b₁.toNat ≤ 0x9F) := by
          simp only at h₁'
          split at h₁' <;> omega
        have hm := toNat_ofNat_char (n := (n * 64 + (b₁.toNat - 0x80)) * 64 + (b₂.toNat - 0x80))
          (by omega)
        rw [encodeChar, hm, if_neg (by omega), if_neg (by omega), if_pos (by omega),
          ofNat_eq_of_eq_toNat (b := b) (by omega), ofNat_eq_of_eq_toNat (b := b₁) (by omega),
          ofNat_eq_of_eq_toNat (b := b₂) (by omega)]
        rfl
      · rw [hbn, lead?_four hn] at hl
        obtain rfl := Option.some.inj hl
        obtain ⟨b₁, rest, rfl, h₁, h₁', h⟩ := exists_of_readMore_succ h
        obtain ⟨b₂, rest, rfl, h₂, h₂', h⟩ := exists_of_readMore_succ h
        obtain ⟨b₃, rest, rfl, h₃, h₃', h⟩ := exists_of_readMore_succ h
        obtain ⟨rfl, rfl⟩ := Part.char.inj h
        have hlow : 0x80 ≤ b₁.toNat ∧ (n = 0 → 0x90 ≤ b₁.toNat) := by
          simp only at h₁
          split at h₁ <;> omega
        have hhigh : b₁.toNat ≤ 0xBF ∧ (n = 4 → b₁.toNat ≤ 0x8F) := by
          simp only at h₁'
          split at h₁' <;> omega
        have hm := toNat_ofNat_char
          (n := ((n * 64 + (b₁.toNat - 0x80)) * 64 + (b₂.toNat - 0x80)) * 64 + (b₃.toNat - 0x80))
          (by omega)
        rw [encodeChar, hm, if_neg (by omega), if_neg (by omega), if_neg (by omega),
          ofNat_eq_of_eq_toNat (b := b) (by omega), ofNat_eq_of_eq_toNat (b := b₁) (by omega),
          ofNat_eq_of_eq_toNat (b := b₂) (by omega), ofNat_eq_of_eq_toNat (b := b₃) (by omega)]
        rfl

/-- Parts that are all characters write their byte string. -/
theorem encode_of_ofParts {bs : Bytes} :
    ∀ {index : Nat} {cs : List Char}, ofParts index (parts bs) = .ok cs → encode cs = bs := by
  induction bs using parts.induct with
  | case1 =>
    intro index cs h
    rw [parts] at h
    obtain rfl := Except.ok.inj h
    rfl
  | case2 b bs part =>
    rename_i ih
    intro index cs h
    replace ih : ∀ {index : Nat} {cs : List Char},
      ofParts index (parts (bs.drop ((firstPart b bs).size - 1))) = .ok cs →
        encode cs = bs.drop ((firstPart b bs).size - 1) := ih
    -- Only a character may stand in front; the induction hypothesis is about what is behind it.
    cases hpart : firstPart b bs with
    | invalid size => simp [parts_of_firstPart hpart, ofParts] at h
    | incomplete size => simp [parts_of_firstPart hpart, ofParts] at h
    | char c size =>
      rw [parts_of_firstPart hpart, ofParts] at h
      rw [hpart] at ih
      cases hrest : ofParts (index + size) (parts (bs.drop (size - 1))) with
      | error e =>
        rw [Part.size, hrest] at h
        simp [Except.map] at h
      | ok ds =>
        rw [Part.size, hrest] at h
        obtain rfl := Except.ok.inj h
        rw [encode_cons, ih hrest, eq_encodeChar_append_of_firstPart hpart, Part.size]

/-- A byte string that reads as text is the one written for it. -/
theorem encode_of_decode {bs : Bytes} {cs : List Char} (h : decode bs = .ok cs) : encode cs = bs :=
  encode_of_ofParts h

theorem encodeText_of_decodeText {bs : Bytes} {s : String} (h : decodeText bs = .ok s) :
    encodeText s = bs := by
  unfold decodeText at h
  cases hdecode : decode bs with
  | error e =>
    rw [hdecode] at h
    cases h
  | ok cs =>
    rw [hdecode] at h
    cases h
    rw [encodeText, String.toList_ofList]
    exact encode_of_decode hdecode

/-- A byte string is text in at most one way. -/
theorem decode_eq_ok_iff {bs : Bytes} {cs : List Char} : decode bs = .ok cs ↔ encode cs = bs :=
  ⟨encode_of_decode, fun h => h ▸ decode_encode cs⟩

end ReplicaStore.Utf8
