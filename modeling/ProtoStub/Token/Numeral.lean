import ProtoStub.Token.Fault

/-!
# Numerals

The longest numeral at the start of a glyph list is cut into its parts (`Numeral.take`), and the
parts are then checked (`Numeral.fault?`). Cutting never fails: a numeral with a wrong digit or
without digits is still one token, which the check refuses. `Numeral.natValue?` reads integers.
-/

namespace ProtoStub

open Text

/-- The exponent of a floating-point literal. -/
structure Exponent where
  /-- `e`, `E`, `p` or `P`. -/
  mark : Char
  sign : Option Char
  digits : List Char
  deriving Repr, DecidableEq, Inhabited

/-- A numeral by parts. `whole` includes a leading zero, but not the mark of a radix. -/
structure Numeral where
  radix : Radix
  /-- The two characters that announce the radix, if any. -/
  announce : List Char
  whole : List Char
  point : Bool
  fraction : List Char
  exponent : Option Exponent
  deriving Repr, DecidableEq, Inhabited

/-- A hexadecimal digit in either case. -/
def isHexDigit (c : Char) : Bool :=
  c.isDigit || ('a' ≤ c && c ≤ 'f') || ('A' ≤ c && c ≤ 'F')

/-- The value of a hexadecimal digit. -/
def hexValue (c : Char) : Nat :=
  if c.isDigit then c.toNat - '0'.toNat
  else if 'a' ≤ c && c ≤ 'f' then c.toNat - 'a'.toNat + 10
  else c.toNat - 'A'.toNat + 10

namespace Radix

/-- The base of the notation. -/
def base : Radix → Nat
  | .decimal => 10
  | .zeroOctal | .octal => 8
  | .binary => 2
  | .hexadecimal => 16

/-- Characters that continue the digits of a literal: digits of base ten or sixteen, right or wrong
for the radix, and the separator. -/
def continues (r : Radix) (c : Char) : Bool :=
  c == '_' || (if r == .hexadecimal then isHexDigit c else c.isDigit)

/-- The radix that the second character of a literal starting with zero announces. -/
def announced? (c : Char) : Option Radix :=
  if c == 'x' || c == 'X' then some .hexadecimal
  else if c == 'o' || c == 'O' then some .octal
  else if c == 'b' || c == 'B' then some .binary
  else none

end Radix

/-- The characters of the longest start of `gs` in the class `p`. -/
def takeChars (p : Char → Bool) (gs : List Glyph) : List Char :=
  (gs.takeWhile (Glyph.all p)).map Glyph.toChar

/-- What follows the longest start of `gs` in the class `p`. -/
def dropChars (p : Char → Bool) (gs : List Glyph) : List Glyph :=
  gs.dropWhile (Glyph.all p)

namespace Numeral

/-- The radix of the literal at the start of `gs`, the characters that announce it and what follows
them. -/
def takeRadix (gs : List Glyph) : Radix × List Char × List Glyph :=
  match gs with
  | .char z :: rest =>
    if z == '0' then
      match rest with
      | .char m :: after =>
        match Radix.announced? m with
        | some r => (r, [z, m], after)
        | none => (.zeroOctal, [], gs)
      | _ => (.zeroOctal, [], gs)
    else (.decimal, [], gs)
  | _ => (.decimal, [], gs)

/-- The exponent at the start of `gs`, if there is one, and what follows it. -/
def takeExponent (gs : List Glyph) : Option Exponent × List Glyph :=
  match gs with
  | .char m :: rest =>
    if m == 'e' || m == 'E' || m == 'p' || m == 'P' then
      let (sign, rest) :=
        match rest with
        | .char s :: after => if s == '+' || s == '-' then (some s, after) else (none, rest)
        | _ => (none, rest)
      (some ⟨m, sign, takeChars (Radix.continues .decimal) rest⟩,
        dropChars (Radix.continues .decimal) rest)
    else (none, gs)
  | _ => (none, gs)

/-- The longest numeral at the start of `gs`, which starts with a digit or with a point and a digit,
and what follows it. -/
def take (gs : List Glyph) : Numeral × List Glyph :=
  let (radix, announce, gs) := takeRadix gs
  let whole := takeChars radix.continues gs
  let gs := dropChars radix.continues gs
  let point := gs.head?.any (·.is '.')
  let gs := if point then gs.drop 1 else gs
  let fraction := if point then takeChars radix.continues gs else []
  let gs := if point then dropChars radix.continues gs else gs
  let (exponent, gs) := takeExponent gs
  (⟨radix, announce, whole, point, fraction, exponent⟩, gs)

/-- The literal has a point or an exponent. -/
def isFloat (n : Numeral) : Bool := n.point || n.exponent.isSome

/-- The numeral as spelled. -/
def spelling (n : Numeral) : List Char :=
  n.announce ++ n.whole ++ (if n.point then ['.'] else []) ++ n.fraction ++
    match n.exponent with
    | some e => e.mark :: e.sign.toList ++ e.digits
    | none => []

/-- One step of checking separators: `last` classifies the character before `c` as a digit
(`some true`), a separator (`some false`) or neither (`none`). A separator needs a digit before it,
and what follows a separator has to be a digit. -/
def separatorStep (hex : Bool) (last : Option Bool) (c : Char) : Except Unit (Option Bool) :=
  if c == '_' then if last == some true then .ok (some false) else .error ()
  else if c.isDigit || (hex && isHexDigit c) then .ok (some true)
  else if last == some false then .error ()
  else .ok none

/-- Every separator stands between two digits; the mark of a radix counts as a digit. -/
def separatorsFit (n : Numeral) : Bool :=
  let start := if n.announce.isEmpty then none else some true
  let body := n.spelling.drop n.announce.length
  match body.foldlM (separatorStep (n.radix == .hexadecimal)) start with
  | .ok last => last != some false
  | .error _ => false

/-- The first reason to refuse the numeral. `ahead` is the fault of the glyph that follows it, which
takes its turn when that glyph is first looked at. -/
def fault? (n : Numeral) (ahead : Option LexFault) : Option LexFault :=
  let require (c : Bool) (f : LexFault) : Option LexFault := if c then none else some f
  let mantissa : Option LexFault :=
    match n.exponent with
    | some e =>
      if e.mark == 'p' || e.mark == 'P' then
        require (n.radix == .hexadecimal) (.exponentNeedsHexadecimal e.mark)
      else require (n.radix == .decimal || n.radix == .zeroOctal) (.exponentNeedsDecimal e.mark)
    | none => none
  let wrongDigit : Option LexFault :=
    if n.isFloat then none
    else (n.whole.find? fun c => c != '_' && n.radix.base ≤ hexValue c).map
      (.invalidDigit · n.radix)
  let separated := n.separatorsFit ||
    !(n.whole.contains '_' || n.fraction.contains '_' ||
      n.exponent.any fun e => e.digits.contains '_')
  (if n.exponent.isNone && n.fraction.isEmpty then ahead else none)
    <|> require (!n.point || !(n.radix == .octal || n.radix == .binary)) (.radixPoint n.radix)
    <|> (if n.exponent.isNone then ahead else none)
    <|> require ((n.whole ++ n.fraction).any (· != '_')) (.noDigits n.radix)
    <|> mantissa
    <|> ahead
    <|> require (n.exponent.all fun e => e.digits.any (· != '_')) .exponentWithoutDigits
    <|> require (!(n.point && n.radix == .hexadecimal && n.exponent.isNone)) .mantissaNeedsExponent
    <|> wrongDigit
    <|> require separated .misplacedSeparator

end Numeral

/-- The value of an accepted integer literal as spelled. -/
def intValue (spelling : String) : Nat :=
  let (radix, _, _) := Numeral.takeRadix (glyphsOf spelling)
  let digits := if radix == .decimal || radix == .zeroOctal then spelling.toList
    else spelling.toList.drop 2
  (digits.filter (· != '_')).foldl (fun n c => n * radix.base + hexValue c) 0

end ProtoStub
