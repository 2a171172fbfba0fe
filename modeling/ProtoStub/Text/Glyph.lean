/-!
# Glyphs: characters and stray bytes

Source files are bytes that ought to be UTF-8. Reading them gives one glyph per character and one
per byte that belongs to no character, so that a fault can be reported where it stands.
`glyphs` reads bytes; `Glyph.text` writes glyphs out with U+FFFD for each stray byte.
-/

namespace ProtoStub.Text

/-- One unit of source text. -/
inductive Glyph where
  /-- A character, read from a well-formed UTF-8 sequence. -/
  | char (c : Char)
  /-- A byte that starts no well-formed UTF-8 sequence. -/
  | stray (b : UInt8)
  deriving Repr, DecidableEq, Inhabited

/-- A byte of the second or a later place of a UTF-8 sequence. -/
def isTail (b : UInt8) : Bool := 0x80 ≤ b && b ≤ 0xBF

/-- The six payload bits of a tail byte. -/
def tailBits (b : UInt8) : Nat := b.toNat % 64

/-- The character whose UTF-8 sequence is `b` followed by the start of `bs`, with the number of
bytes of `bs` it takes. Overlong forms, surrogates and values above U+10FFFF are no sequences. -/
def sequenceAt (b : UInt8) (bs : List UInt8) : Option (Char × Nat) :=
  if b < 0x80 then some (Char.ofNat b.toNat, 0)
  else if 0xC2 ≤ b && b ≤ 0xDF then
    match bs with
    | b1 :: _ =>
      if isTail b1 then some (Char.ofNat ((b.toNat % 32) * 64 + tailBits b1), 1) else none
    | _ => none
  else if 0xE0 ≤ b && b ≤ 0xEF then
    match bs with
    | b1 :: b2 :: _ =>
      if isTail b1 && isTail b2 && !(b == 0xE0 && b1 < 0xA0) && !(b == 0xED && b1 > 0x9F) then
        some (Char.ofNat (((b.toNat % 16) * 64 + tailBits b1) * 64 + tailBits b2), 2)
      else none
    | _ => none
  else if 0xF0 ≤ b && b ≤ 0xF4 then
    match bs with
    | b1 :: b2 :: b3 :: _ =>
      if isTail b1 && isTail b2 && isTail b3 && !(b == 0xF0 && b1 < 0x90) &&
          !(b == 0xF4 && b1 > 0x8F) then
        some (Char.ofNat
          ((((b.toNat % 8) * 64 + tailBits b1) * 64 + tailBits b2) * 64 + tailBits b3), 3)
      else none
    | _ => none
  else none

/-- The glyphs of a byte sequence. -/
def glyphs : List UInt8 → List Glyph
  | [] => []
  | b :: bs =>
    match sequenceAt b bs with
    | some (c, n) => .char c :: glyphs (bs.drop n)
    | none => .stray b :: glyphs bs
termination_by bs => bs.length
decreasing_by all_goals simp only [List.length_cons, List.length_drop]; omega

/-- The glyphs of a text, one per character. -/
def glyphsOf (s : String) : List Glyph := s.toList.map .char

/-- The character a glyph is shown as: U+FFFD stands for a stray byte. -/
def Glyph.toChar : Glyph → Char
  | .char c => c
  | .stray _ => '�'

/-- The glyph is the character `c`. -/
def Glyph.is (g : Glyph) (c : Char) : Bool :=
  match g with
  | .char d => d == c
  | .stray _ => false

/-- The glyph is a character of the class `p`. -/
def Glyph.all (p : Char → Bool) : Glyph → Bool
  | .char c => p c
  | .stray _ => false

/-- Bytes as text, with U+FFFD for each stray byte. -/
def textOf (bs : List UInt8) : String :=
  String.ofList ((glyphs bs).map Glyph.toChar)

/-- The UTF-8 bytes of a text. -/
def bytesOf (s : String) : List UInt8 := s.toUTF8.toList

end ProtoStub.Text
