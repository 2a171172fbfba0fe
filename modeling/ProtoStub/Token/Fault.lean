import ProtoStub.Text.Quoted

/-!
# Lexical faults

What can be wrong with the spelling of a schema file, and the wording of each fault.
-/

namespace ProtoStub

open Text

/-- The notation of an integer or floating-point literal, chosen by how it starts. -/
inductive Radix where
  /-- No mark: `12`. -/
  | decimal
  /-- A leading zero: `017`. -/
  | zeroOctal
  /-- The mark `0o`. -/
  | octal
  /-- The mark `0b`. -/
  | binary
  /-- The mark `0x`. -/
  | hexadecimal
  deriving Repr, DecidableEq, Inhabited

/-- What a literal of this notation is called in messages. -/
def Radix.literalName : Radix → String
  | .decimal => "decimal literal"
  | .zeroOctal | .octal => "octal literal"
  | .binary => "binary literal"
  | .hexadecimal => "hexadecimal literal"

/-- A reason why a file cannot be cut into tokens. -/
inductive LexFault where
  | invalidEncoding
  | nulCharacter
  | commentNotTerminated
  | literalNotTerminated
  | invalidEscape
  /-- A string in single quotes that its line or the file ends. -/
  | unterminatedString
  | radixPoint (radix : Radix)
  | noDigits (radix : Radix)
  | exponentNeedsDecimal (mark : Char)
  | exponentNeedsHexadecimal (mark : Char)
  | exponentWithoutDigits
  | mantissaNeedsExponent
  | invalidDigit (digit : Char) (radix : Radix)
  | misplacedSeparator
  deriving Repr, DecidableEq, Inhabited

/-- The wording of a lexical fault. -/
def LexFault.message : LexFault → String
  | .invalidEncoding => "invalid UTF-8 encoding"
  | .nulCharacter => "invalid character NUL"
  | .commentNotTerminated => "comment not terminated"
  | .literalNotTerminated => "literal not terminated"
  | .invalidEscape => "invalid char escape"
  | .unterminatedString => "unterminated string"
  | .radixPoint r => "invalid radix point in " ++ r.literalName
  | .noDigits r => r.literalName ++ " has no digits"
  | .exponentNeedsDecimal c => quoteChar c ++ " exponent requires decimal mantissa"
  | .exponentNeedsHexadecimal c => quoteChar c ++ " exponent requires hexadecimal mantissa"
  | .exponentWithoutDigits => "exponent has no digits"
  | .mantissaNeedsExponent => "hexadecimal mantissa requires a 'p' exponent"
  | .invalidDigit d r => "invalid digit " ++ quoteChar d ++ " in " ++ r.literalName
  | .misplacedSeparator => "'_' must separate successive digits"

/-- A lexical fault with the line it is reported on; zero when no token has started. -/
structure LexError where
  line : Nat
  fault : LexFault
  deriving Repr, DecidableEq, Inhabited

/-- The fault of reading a glyph: a stray byte or the NUL character. -/
def glyphFault? : Glyph → Option LexFault
  | .stray _ => some .invalidEncoding
  | .char c => if c == Char.ofNat 0 then some .nulCharacter else none

/-- The fault of reading the first of the glyphs, if there is one. -/
def aheadFault? (gs : List Glyph) : Option LexFault := gs.head?.bind glyphFault?

/-- The first fault met when all the glyphs are read in order. -/
def firstFault? (gs : List Glyph) : Option LexFault := gs.findSome? glyphFault?

end ProtoStub
