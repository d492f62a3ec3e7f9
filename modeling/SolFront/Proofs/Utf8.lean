import SolFront.Text.Utf8

/-!
# Text comes back from its bytes

The bytes of a character are read as the character, whatever follows them: its first byte promises
as many more as there are, and each of these lies within the bounds that are left. So a text that is
written to bytes and read again is the same, and different texts have different bytes.
-/

namespace SolFront.Text

/-! ## The first byte -/

section

variable {b : Nat}

theorem Lead.of?_one (h : b < 0x80) : Lead.of? b = some ⟨0, 0x80, 0xbf, b⟩ :=
  if_pos h

theorem Lead.of?_two (h : 0xc2 ≤ b) (h' : b ≤ 0xdf) :
    Lead.of? b = some ⟨1, 0x80, 0xbf, b - 0xc0⟩ := by
  unfold Lead.of?
  rw [if_neg (by omega), if_pos (by simp [h, h'])]

/-- The bounds on the second of three bytes keep short forms and surrogates out. -/
theorem Lead.of?_three (h : 0xe0 ≤ b) (h' : b ≤ 0xef) :
    Lead.of? b = some ⟨2, if b = 0xe0 then 0xa0 else 0x80, if b = 0xed then 0x9f else 0xbf,
      b - 0xe0⟩ := by
  unfold Lead.of?
  rw [if_neg (by omega), if_neg (by simp; omega)]
  by_cases hfirst : b = 0xe0
  · simp [hfirst]
  by_cases hsurrogate : b = 0xed
  · simp [hsurrogate]
  rw [if_neg (by simpa using hfirst), if_neg (by simpa using hsurrogate),
    if_pos (by simp; omega), if_neg hfirst, if_neg hsurrogate]

/-- The bounds on the second of four bytes keep short forms and numbers of no character out. -/
theorem Lead.of?_four (h : 0xf0 ≤ b) (h' : b ≤ 0xf4) :
    Lead.of? b = some ⟨3, if b = 0xf0 then 0x90 else 0x80, if b = 0xf4 then 0x8f else 0xbf,
      b - 0xf0⟩ := by
  unfold Lead.of?
  rw [if_neg (by omega), if_neg (by simp; omega), if_neg (by simp; omega),
    if_neg (by simp; omega), if_neg (by simp; omega)]
  by_cases hfirst : b = 0xf0
  · simp [hfirst]
  by_cases hlast : b = 0xf4
  · simp [hlast]
  rw [if_neg (by simpa using hfirst), if_neg (by simpa using hlast), if_pos (by simp; omega),
    if_neg hfirst, if_neg hlast]

end

/-! ## The other bytes -/

/-- A byte within the bounds adds six bits. -/
theorem Lead.read_go_cons {tails least greatest bits n : Nat} (rest : List UInt8)
    (hn : n < 256) (hleast : least ≤ n) (hgreatest : n ≤ greatest) :
    Lead.read.go (tails + 1) least greatest bits (UInt8.ofNat n :: rest)
      = Lead.read.go tails 0x80 0xbf (bits * 64 + (n - 0x80)) rest := by
  have hbyte : (UInt8.ofNat n).toNat = n := UInt8.toNat_ofNat_of_lt' hn
  rw [Lead.read.go, hbyte, if_pos (by simp [hleast, hgreatest])]

/-- The last byte completes the character. -/
theorem Lead.read_go_last {least greatest bits n : Nat} {c : Char} (rest : List UInt8)
    (hn : n < 256) (hleast : least ≤ n) (hgreatest : n ≤ greatest)
    (hbits : bits * 64 + (n - 0x80) = c.toNat) :
    Lead.read.go 1 least greatest bits (UInt8.ofNat n :: rest) = (.char c, rest) := by
  rw [Lead.read_go_cons rest hn hleast hgreatest, hbits]
  unfold Lead.read.go
  rw [Char.ofNat_toNat]

theorem firstPiece_ofNat {n tails least greatest bits : Nat} (hn : n < 256)
    (h : Lead.of? n = some ⟨tails, least, greatest, bits⟩) (bytes : List UInt8) :
    firstPiece (UInt8.ofNat n) bytes = Lead.read.go tails least greatest bits bytes := by
  unfold firstPiece
  rw [UInt8.toNat_ofNat_of_lt' hn, h]
  rfl

/-- **The bytes of a character are read as the character**, whatever follows. -/
theorem firstPiece_encodeChar (c : Char) (rest : List UInt8) :
    ∃ b tail, String.utf8EncodeChar c = b :: tail
      ∧ firstPiece b (tail ++ rest) = (.char c, rest) := by
  have hvalid : c.toNat < 0xd800 ∨ 0xdfff < c.toNat ∧ c.toNat < 0x110000 := c.valid
  have hval : c.val.toNat = c.toNat := rfl
  unfold String.utf8EncodeChar
  rw [hval]
  dsimp only
  -- one case for each number of bytes
  by_cases hone : c.toNat ≤ 127
  · rw [if_pos hone]
    refine ⟨_, _, rfl, ?_⟩
    rw [firstPiece_ofNat (by omega) (Lead.of?_one (by omega))]
    show (Piece.char (Char.ofNat c.toNat), rest) = _
    rw [Char.ofNat_toNat]
  by_cases htwo : c.toNat ≤ 2047
  · rw [if_neg hone, if_pos htwo]
    refine ⟨_, _, rfl, ?_⟩
    rw [firstPiece_ofNat (by omega) (Lead.of?_two (by omega) (by omega))]
    exact Lead.read_go_last rest (by omega) (by omega) (by omega) (by omega)
  by_cases hthree : c.toNat ≤ 65535
  · rw [if_neg hone, if_neg htwo, if_pos hthree]
    refine ⟨_, _, rfl, ?_⟩
    rw [firstPiece_ofNat (by omega) (Lead.of?_three (by omega) (by omega))]
    rw [List.cons_append, Lead.read_go_cons _ (by omega) (by split <;> omega) (by split <;> omega)]
    exact Lead.read_go_last rest (by omega) (by omega) (by omega) (by omega)
  · rw [if_neg hone, if_neg htwo, if_neg hthree]
    refine ⟨_, _, rfl, ?_⟩
    rw [firstPiece_ofNat (by omega) (Lead.of?_four (by omega) (by omega))]
    rw [List.cons_append, Lead.read_go_cons _ (by omega) (by split <;> omega) (by split <;> omega),
      List.cons_append, Lead.read_go_cons _ (by omega) (by omega) (by omega)]
    exact Lead.read_go_last rest (by omega) (by omega) (by omega) (by omega)

/-- A character below `0x80` is one byte. -/
theorem encodeChar_of_lt {c : Char} (h : c.toNat < 0x80) :
    String.utf8EncodeChar c = [UInt8.ofNat c.toNat] :=
  if_pos (Nat.le_of_lt_succ h)

/-- All bytes of the other characters are above. -/
theorem le_of_mem_encodeChar {c : Char} (h : 0x80 ≤ c.toNat) {b : UInt8}
    (hb : b ∈ String.utf8EncodeChar c) : 0x80 ≤ b.toNat := by
  have hval : c.val.toNat = c.toNat := rfl
  -- a byte below 256 is its number, so each byte is looked at as a number
  have hhigh : ∀ n, 0x80 ≤ n → n < 256 → 0x80 ≤ (UInt8.ofNat n).toNat := by
    intro n hn hlt
    rw [UInt8.toNat_ofNat_of_lt' hlt]
    exact hn
  unfold String.utf8EncodeChar at hb
  rw [hval] at hb
  dsimp only at hb
  rw [if_neg (by omega)] at hb
  split at hb
  · simp only [List.mem_cons, List.not_mem_nil, or_false] at hb
    rcases hb with rfl | rfl <;> exact hhigh _ (by omega) (by omega)
  · split at hb <;> simp only [List.mem_cons, List.not_mem_nil, or_false] at hb
    · rcases hb with rfl | rfl | rfl <;> exact hhigh _ (by omega) (by omega)
    · rcases hb with rfl | rfl | rfl | rfl <;> exact hhigh _ (by omega) (by omega)

/-! ## Texts -/

theorem toList_loop_eq (bytes : ByteArray) (i : Nat) (before : List UInt8) :
    ByteArray.toList.loop bytes i before = before.reverse ++ bytes.data.toList.drop i := by
  -- the loop counts up to the size, so the induction is on the bytes that are left
  induction h : bytes.size - i generalizing i before with
  | zero =>
      have hlength : bytes.data.toList.length ≤ i := by
        show bytes.size ≤ i
        omega
      rw [ByteArray.toList.loop, if_neg (by omega), List.drop_eq_nil_of_le hlength,
        List.append_nil]
  | succ n ih =>
      have hlt : i < bytes.data.toList.length := by
        show i < bytes.size
        omega
      have hget : bytes.get! i = bytes.data.toList[i] := getElem!_pos bytes.data i hlt
      rw [ByteArray.toList.loop, if_pos (by omega), ih (i + 1) _ (by omega),
        List.reverse_cons, List.append_assoc, List.drop_eq_getElem_cons hlt, hget]
      rfl

/-- The bytes of a text are those of its characters. -/
theorem encode_eq (text : String) : encode text = text.toList.flatMap String.utf8EncodeChar := by
  have hbytes : text.toUTF8.data.toList = text.toList.flatMap String.utf8EncodeChar := by
    rw [← String.ofList_toList (s := text), String.toUTF8, String.toByteArray_ofList,
      List.utf8Encode, String.toList_ofList]
    exact List.toList_data_toByteArray
  rw [← hbytes]
  exact toList_loop_eq text.toUTF8 0 []

theorem pieces_encode (cs : List Char) :
    pieces (cs.flatMap String.utf8EncodeChar) = cs.map Piece.char := by
  induction cs with
  | nil => rw [List.flatMap_nil, pieces, List.map_nil]
  | cons c cs ih =>
      obtain ⟨b, tail, hbytes, hpiece⟩ :=
        firstPiece_encodeChar c (cs.flatMap String.utf8EncodeChar)
      rw [List.flatMap_cons, hbytes, List.cons_append, pieces, hpiece, ih, List.map_cons]

/-- **A text comes back from its bytes.** -/
theorem decodeLenient_encode (text : String) : decodeLenient (encode text) = text := by
  unfold decodeLenient
  rw [encode_eq, pieces_encode, List.map_map]
  exact (congrArg String.ofList (List.map_id _)).trans String.ofList_toList

theorem encode_injective : Function.Injective encode := by
  intro text text' h
  rw [← decodeLenient_encode text, h, decodeLenient_encode]

end SolFront.Text
