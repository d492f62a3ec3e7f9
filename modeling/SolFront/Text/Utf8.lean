/-!
# UTF-8 text in bytes

A program's output is bytes. Reading is strict where the bytes are a source file, and lenient where
they come from another program: every longest run of bytes that begins a character and breaks off
is shown as one replacement character.
-/

namespace SolFront.Text

/-- What a leading byte promises: the bytes still to come, the bounds on the first of them, and the
bits it carries itself. -/
structure Lead where
  tails : Nat
  least : Nat
  greatest : Nat
  bits : Nat

/-- What the first byte of a character promises; no character starts with the other bytes. -/
def Lead.of? (b : Nat) : Option Lead :=
  if b < 0x80 then some ⟨0, 0x80, 0xbf, b⟩
  else if 0xc2 ≤ b && b ≤ 0xdf then some ⟨1, 0x80, 0xbf, b - 0xc0⟩
  else if b == 0xe0 then some ⟨2, 0xa0, 0xbf, 0⟩
  else if b == 0xed then some ⟨2, 0x80, 0x9f, 0xd⟩
  else if 0xe1 ≤ b && b ≤ 0xef then some ⟨2, 0x80, 0xbf, b - 0xe0⟩
  else if b == 0xf0 then some ⟨3, 0x90, 0xbf, 0⟩
  else if b == 0xf4 then some ⟨3, 0x80, 0x8f, 4⟩
  else if 0xf1 ≤ b && b ≤ 0xf3 then some ⟨3, 0x80, 0xbf, b - 0xf0⟩
  else none

/-- A character read from bytes, or a piece of one that breaks off. -/
inductive Piece where
  | char (c : Char)
  | broken

/-- Reads the tail bytes that `lead` promises. The piece ends before the first byte that is not
one of them. -/
def Lead.read (lead : Lead) : List UInt8 → Piece × List UInt8
  | bytes => go lead.tails lead.least lead.greatest lead.bits bytes
where
  /-- Reads `tails` more bytes, the first of them between `least` and `greatest`. -/
  go : Nat → Nat → Nat → Nat → List UInt8 → Piece × List UInt8
    | 0, _, _, bits, bytes => (.char (Char.ofNat bits), bytes)
    | _ + 1, _, _, _, [] => (.broken, [])
    | tails + 1, least, greatest, bits, b :: bytes =>
      if least ≤ b.toNat && b.toNat ≤ greatest then
        go tails 0x80 0xbf (bits * 64 + (b.toNat - 0x80)) bytes
      else (.broken, b :: bytes)

theorem Lead.length_go_le (tails least greatest bits : Nat) (bytes : List UInt8) :
    (Lead.read.go tails least greatest bits bytes).2.length ≤ bytes.length := by
  induction tails generalizing least greatest bits bytes with
  | zero => simp [Lead.read.go]
  | succ tails ih =>
    cases bytes with
    | nil => simp [Lead.read.go]
    | cons b bytes =>
      simp only [Lead.read.go]
      split
      · exact Nat.le_succ_of_le (ih _ _ _ _)
      · exact Nat.le_refl _

/-- The first piece of the bytes `b :: bytes`, and the bytes after it. -/
def firstPiece (b : UInt8) (bytes : List UInt8) : Piece × List UInt8 :=
  match Lead.of? b.toNat with
  | some lead => lead.read bytes
  | none => (.broken, bytes)

theorem length_firstPiece_le (b : UInt8) (bytes : List UInt8) :
    (firstPiece b bytes).2.length ≤ bytes.length := by
  unfold firstPiece
  split
  · exact Lead.length_go_le _ _ _ _ _
  · exact Nat.le_refl _

/-- The bytes as pieces. -/
def pieces : List UInt8 → List Piece
  | [] => []
  | b :: bytes =>
    have : (firstPiece b bytes).2.length ≤ bytes.length := length_firstPiece_le b bytes
    (firstPiece b bytes).1 :: pieces (firstPiece b bytes).2
termination_by bytes => bytes.length

/-- The text that the bytes spell, if they are well formed. -/
def decode? (bytes : List UInt8) : Option String :=
  String.ofList <$> (pieces bytes).mapM fun
    | .char c => some c
    | .broken => none

/-- The text that the bytes spell, with U+FFFD for each broken piece. -/
def decodeLenient (bytes : List UInt8) : String :=
  String.ofList ((pieces bytes).map fun
    | .char c => c
    | .broken => Char.ofNat 0xfffd)

/-- The bytes that spell the text. -/
def encode (text : String) : List UInt8 :=
  text.toUTF8.toList

end SolFront.Text
