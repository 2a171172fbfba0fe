import ProtoStub.Text.Glyph
import ProtoStub.Text.Printable

/-!
# Quoted text

Messages show names between double quotes (`quoteText`, `quoteBytes`) and single characters between
single quotes (`quoteChar`). The quote and the backslash are escaped, printable characters stand for
themselves, and everything else is written as an escape, so that quoted text is always printable.
-/

namespace ProtoStub.Text

/-- A hexadecimal digit, in lower case. -/
def hexDigit (n : Nat) : Char :=
  if n < 10 then Char.ofNat ('0'.toNat + n) else Char.ofNat ('a'.toNat + (n - 10))

/-- The last `width` hexadecimal digits of `n`, most significant first. -/
def hexDigits : (width : Nat) → (n : Nat) → List Char
  | 0, _ => []
  | w + 1, n => hexDigits w (n / 16) ++ [hexDigit (n % 16)]

/-- The letter of a one-letter escape. -/
def escapeLetter? (c : Char) : Option Char :=
  match c.toNat with
  | 7 => some 'a'
  | 8 => some 'b'
  | 9 => some 't'
  | 10 => some 'n'
  | 11 => some 'v'
  | 12 => some 'f'
  | 13 => some 'r'
  | _ => none

/-- A character as it stands between two `quote` characters. -/
def escapeChar (quote c : Char) : List Char :=
  if c == quote || c == '\\' then ['\\', c]
  else if isPrintable c then [c]
  else match escapeLetter? c with
    | some l => ['\\', l]
    | none =>
      if c.toNat < 32 || c.toNat == 127 then '\\' :: 'x' :: hexDigits 2 c.toNat
      else if c.toNat < 0x10000 then '\\' :: 'u' :: hexDigits 4 c.toNat
      else '\\' :: 'U' :: hexDigits 8 c.toNat

/-- A glyph as it stands between double quotes; a stray byte is written in hexadecimal. -/
def escapeGlyph : Glyph → List Char
  | .char c => escapeChar '"' c
  | .stray b => '\\' :: 'x' :: hexDigits 2 b.toNat

/-- Glyphs between double quotes. -/
def quoteGlyphs (gs : List Glyph) : String :=
  String.ofList ('"' :: gs.flatMap escapeGlyph ++ ['"'])

/-- A text between double quotes. -/
def quoteText (s : String) : String := quoteGlyphs (glyphsOf s)

/-- Bytes between double quotes. -/
def quoteBytes (bs : List UInt8) : String := quoteGlyphs (glyphs bs)

/-- A character between single quotes. -/
def quoteChar (c : Char) : String :=
  String.ofList ('\'' :: escapeChar '\'' c ++ ['\''])

end ProtoStub.Text
