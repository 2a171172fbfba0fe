import ProtoStub.Definition.Scope
import ProtoStub.Text.Integer
import ProtoStub.Text.Glyph
import ProtoStub.Type

/-!
# Stored default values

The default of a field is stored as text, whatever its type. `hasDefault` tells which texts are
defaults of a scalar type: integers in decimal digits, numbers with a fraction in decimal or
hexadecimal digits, bytes with escapes.
-/

namespace ProtoStub.Definition.Stored

open Text

/-- A digit of the radix sixteen. -/
def isHexDigit (c : Char) : Bool := (digitValue? c).any (· < 16)

/-- A digit of the radix eight. -/
def isOctalDigit (c : Char) : Bool := '0' ≤ c && c ≤ '7'

/-- The number that digits of the radix `base` spell. -/
def spelled (base : Nat) (digits : List Char) : Nat :=
  digits.foldl (fun n d => n * base + (digitValue? d).getD 0) 0

/-! ## Numbers with a fraction -/

/-- Infinity or no number, in words of any case. A sign stands before infinity only. -/
def isSpecialNumber (s : String) : Bool :=
  let (_, cs) := takeSign s.toList
  let word := String.ofList (cs.map Char.toLower)
  word == "inf" || word == "infinity" || (word == "nan" && cs == s.toList)

/-- How large an exponent can get before further digits are passed over. -/
def exponentCap : Nat := 10000

/-- The exponent that digits spell. -/
def cappedExponent (digits : List Char) : Nat :=
  digits.foldl (fun e d => if e < exponentCap then e * 10 + (digitValue? d).getD 0 else e) 0

/-- A number with an exponent: the digits, how many of them stand behind the point, and the
exponent. -/
structure Scientific where
  digits : List Char
  places : Nat
  exponent : Int

/-- The digits of a number around its point, and what follows them. Underscores are kept. -/
def takeDigits (isDigit : Char → Bool) (cs : List Char) : List Char × List Char × List Char :=
  let fits (c : Char) : Bool := isDigit c || c == '_'
  let whole := cs.takeWhile fits
  match cs.dropWhile fits with
  | '.' :: rest => (whole, rest.takeWhile fits, rest.dropWhile fits)
  | rest => (whole, [], rest)

/-- A number of digits `isDigit`, with an exponent behind the letter `mark`; it can be left out
unless `needed` holds. -/
def scientific? (isDigit : Char → Bool) (mark : Char) (needed : Bool) (cs : List Char) :
    Option Scientific := do
  let (whole, fraction, rest) := takeDigits isDigit cs
  let places := fraction.filter (· != '_')
  let digits := whole.filter (· != '_') ++ places
  if digits.isEmpty then none
  match rest with
  | [] => if needed then none else return ⟨digits, places.length, 0⟩
  | c :: rest =>
    if c.toLower != mark then none
    let (negative, exponent) := takeSign rest
    match exponent with
    | [] => none
    | d :: _ =>
      if !d.isDigit || !exponent.all (fun c => c.isDigit || c == '_') then none
      let e := cappedExponent (exponent.filter (· != '_'))
      return ⟨digits, places.length, if negative then -e else e⟩

/-- Every underscore stands between two digits; `digit` tells that one stands before. -/
def separatesDigits (isDigit : Char → Bool) (digit : Bool) : List Char → Bool
  | [] => true
  | '_' :: cs => digit && ((cs.head?.map isDigit).getD false) && separatesDigits isDigit false cs
  | c :: cs => separatesDigits isDigit (isDigit c) cs

/-- The least number that is too large: it rounds to the power of two behind all others. -/
def tooLarge : Nat := (Nat.pow 2 54 - 1) * Nat.pow 2 970

/-- `mantissa * base ^ exponent` can be rounded to a number of 64 bits. -/
def isInRange (mantissa base : Nat) (exponent : Int) : Bool :=
  mantissa == 0 ||
    mantissa * Nat.pow base exponent.toNat < tooLarge * Nat.pow base (-exponent).toNat

/-- A text spells a number with a fraction that is in range. -/
def spellsReal (s : String) : Bool :=
  if isSpecialNumber s then true
  else
    let (_, cs) := takeSign s.toList
    match cs with
    | '0' :: mark :: d :: ds =>
      if mark.toLower == 'x' then
        match scientific? isHexDigit 'p' true (d :: ds) with
        | none => false
        | some n =>
          separatesDigits isHexDigit true (d :: ds) &&
            isInRange (spelled 16 n.digits) 2 (n.exponent - 4 * n.places)
      else decimal cs
    | cs => decimal cs
where
  /-- The digits spell a decimal number that is in range. -/
  decimal (cs : List Char) : Bool :=
    match scientific? Char.isDigit 'e' false cs with
    | none => false
    | some n =>
      separatesDigits Char.isDigit false cs &&
        isInRange (spelled 10 n.digits) 10 (n.exponent - n.places)

/-! ## Bytes -/

/-- The characters at the start that are in the class `p`. -/
def leading (p : Char → Bool) : List Glyph → List Char
  | .char c :: rest => if p c then c :: leading p rest else []
  | _ => []

/-- The number that the first `n` glyphs spell, if all of them are hexadecimal digits. -/
def hexAt? (n : Nat) (gs : List Glyph) : Option Nat :=
  let digits := (leading isHexDigit gs).take n
  if digits.length == n then some (spelled 16 digits) else none

/-- The length of a code point in hexadecimal digits, `n` of them. The first half of a pair has to
be followed by the second half, in an escape of its own. -/
def codePointLength? (n : Nat) (gs : List Glyph) : Option Nat := do
  let v ← hexAt? n gs
  if v < 0xD800 || (0xDFFF < v && v ≤ 0x10FFFF) then return n
  else if v ≤ 0xDBFF then
    match gs.drop n with
    | .char '\\' :: .char 'u' :: rest =>
      let w ← hexAt? 4 rest
      if 0xDC00 ≤ w && w ≤ 0xDFFF then return n + 6 else none
    | _ => none
  else none

/-- The length of an escape behind its backslash; nothing when it is none. -/
def escapeLength? : List Glyph → Option Nat
  | .char c :: rest =>
    if ("abfnrtv\"'\\?".toList).contains c then some 1
    else if isOctalDigit c then
      let digits := (c :: leading isOctalDigit rest).take 3
      if spelled 8 digits < 256 then some digits.length else none
    else
      match c with
      | 'x' =>
        let digits := (leading isHexDigit rest).take 2
        if digits.isEmpty then none else some (1 + digits.length)
      | 'u' => (codePointLength? 4 rest).map (· + 1)
      | 'U' => (codePointLength? 8 rest).map (· + 1)
      | _ => none
  | _ => none

/-- A text spells bytes. It ends at a quote at the latest. Stray bytes stand for themselves, though
not right behind an escape, as `escaped` tells. -/
def spellsBytes (escaped : Bool) : List Glyph → Bool
  | [] => true
  | .stray _ :: rest => !escaped && spellsBytes false rest
  | .char c :: rest =>
    if c == '"' then true
    else if c == '\\' then
      match escapeLength? rest with
      | none => false
      | some n => spellsBytes true (rest.drop n)
    else c != Char.ofNat 0 && c != '\n' && spellsBytes false rest
termination_by gs => gs.length
decreasing_by all_goals simp only [List.length_cons, List.length_drop]; omega

/-! ## Defaults -/

/-- The text is an integer without sign of at most `bits` bits. -/
def spellsNatural (bits : Nat) (s : String) : Bool :=
  s != "" && (readDigits bits 10 false 0 s.toList).isOk

/-- The text stands for a value of the scalar type. -/
def hasDefault (s : Scalar) (bytes : List UInt8) : Bool :=
  let text := textOf bytes
  match s with
  | .bool => text == "true" || text == "false"
  | .int32 | .sint32 | .sfixed32 => (readInt text 32).isOk
  | .int64 | .sint64 | .sfixed64 => (readInt text 64).isOk
  | .uint32 | .fixed32 => spellsNatural 32 text
  | .uint64 | .fixed64 => spellsNatural 64 text
  | .float | .double => spellsReal text
  | .string => true
  | .bytes => spellsBytes false (glyphs bytes)

end ProtoStub.Definition.Stored
