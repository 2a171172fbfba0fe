import ProtoStub.Token.Numeral

/-!
# Tokens of the full schema language

A compiler reads a schema file in the full language: every statement counts, and literals have
values. `tokenize` cuts a file into tokens, each with its line and column. The list ends with the
token `finish`, or with `fault` where no token can be read, which stands where the token would
start. Bytes that spell no character count as U+FFFD inside strings and comments and are faults
elsewhere.
-/

namespace ProtoStub.Definition

open Text

/-- What a token says. -/
inductive Lexeme where
  | name (text : String)
  /-- An integer of at most 64 bits. -/
  | natural (n : Nat)
  /-- A number with a fraction or an exponent, or an integer that is too large. -/
  | real (isZero : Bool)
  | text (bytes : List UInt8)
  | mark (c : Char)
  | fault
  | finish
  deriving Repr, DecidableEq, Inhabited

/-- A place in a file: lines count from one and columns from zero. -/
structure Place where
  line : Nat := 1
  column : Nat := 0
  deriving Repr, DecidableEq, Inhabited

/-- The place behind a glyph. A tab goes on to the next multiple of eight. -/
def Place.after (p : Place) : Glyph → Place
  | .char '\n' => ⟨p.line + 1, 0⟩
  | .char '\t' => { p with column := p.column + (8 - p.column % 8) }
  | .char _ => { p with column := p.column + 1 }
  | .stray b => if isTail b then p else { p with column := p.column + 1 }

/-- The place behind glyphs. -/
def Place.afterAll (p : Place) (gs : List Glyph) : Place := gs.foldl Place.after p

/-- A token and the place where it starts; its column counts from one. -/
structure Token where
  lexeme : Lexeme
  line : Nat
  column : Nat := 0
  deriving Repr, DecidableEq, Inhabited

/-! ## Numbers -/

/-- Characters that continue a number, right or wrong; a sign only behind the mark of an
exponent. -/
def continuesNumber (afterMark : Bool) (c : Char) : Bool :=
  c == '.' || c == '_' || c.isAlphanum || (afterMark && (c == '+' || c == '-'))

/-- The characters of a number after its first one, and what follows. -/
def takeNumber (afterMark : Bool) : List Glyph → List Char × List Glyph
  | .char c :: rest =>
    if continuesNumber afterMark c then
      let (digits, rest) := takeNumber (c == 'e' || c == 'E') rest
      (c :: digits, rest)
    else ([], .char c :: rest)
  | gs => ([], gs)

/-- The part of a number in front of its exponent. -/
def mantissaOf (cs : List Char) : List Char := cs.takeWhile fun c => c != 'e' && c != 'E'

/-- The text is a decimal fraction: digits with at most one point, at least one digit, and an
exponent that has digits if it is there. -/
def isDecimal (cs : List Char) : Bool :=
  let mantissa := mantissaOf cs
  let digits := mantissa.filter (· != '.')
  let exponent := cs.drop mantissa.length
  let power := match exponent.drop 1 with
    | '+' :: ds | '-' :: ds => ds
    | ds => ds
  digits.all Char.isDigit && !digits.isEmpty && (mantissa.count '.') ≤ 1 &&
    (exponent.isEmpty || (power.all Char.isDigit && !power.isEmpty))

/-- The value of digits in a base; nothing when one of them is no digit of it or there is none. -/
def digitsValue? (base : Nat) (cs : List Char) : Option Nat :=
  if cs.isEmpty || !cs.all (fun c => isHexDigit c && hexValue c < base) then none
  else some (cs.foldl (fun n c => n * base + hexValue c) 0)

/-- The lexeme of a number. -/
def numberLexeme (cs : List Char) : Lexeme :=
  let ofDigits (base : Nat) (ds : List Char) (large : Lexeme) : Lexeme :=
    match digitsValue? base ds with
    | some n => if n < 0x10000000000000000 then .natural n else large
    | none => .fault
  match cs with
  | '0' :: 'x' :: ds | '0' :: 'X' :: ds => ofDigits 16 ds .fault
  | _ =>
    if cs.any (fun c => c == '.' || c == 'e' || c == 'E') then
      if isDecimal cs then .real ((mantissaOf cs).all fun c => c == '0' || c == '.') else .fault
    else if cs.head? == some '0' then ofDigits 8 cs .fault
    else ofDigits 10 cs (.real false)

/-! ## Strings -/

/-- The characters that stand for one byte behind a backslash. -/
def simpleEscapes : List (Char × UInt8) :=
  [('a', 7), ('b', 8), ('f', 12), ('n', 10), ('r', 13), ('t', 9), ('v', 11), ('\\', 92), ('\'', 39),
    ('"', 34), ('?', 63)]

/-- The bytes of the character with the number `n`; U+FFFD for a number that is none. -/
def scalarBytes (n : Int) : List UInt8 :=
  bytesOf (String.singleton (if 0 ≤ n && n.toNat.isValidChar then Char.ofNat n.toNat else '�'))

/-- The value of hexadecimal digits with or without a sign. -/
def signedHex? (gs : List Glyph) : Option Int :=
  match gs.map Glyph.toChar with
  | '-' :: ds => (digitsValue? 16 ds).map fun n => -(n : Int)
  | '+' :: ds => (digitsValue? 16 ds).map Int.ofNat
  | ds => (digitsValue? 16 ds).map Int.ofNat

/-- The number that a code of exactly `count` glyphs spells. -/
def codePoint? (count : Nat) (gs : List Glyph) : Option Int :=
  if (gs.take count).length == count then signedHex? (gs.take count) else none

/-- The bytes of an escape, read from behind its backslash, and the number of its glyphs. A code
that is written in hexadecimal digits may start with a sign. -/
def escape? (gs : List Glyph) : Option (List UInt8 × Nat) :=
  match gs with
  | .char c :: rest =>
    if c == 'x' || c == 'X' then
      let count := if ((rest.drop 1).head?.map (Glyph.all isHexDigit)).getD false then 2 else 1
      (signedHex? (rest.take count)).map fun n => ([(n % 256).toNat.toUInt8], count + 1)
    else if '0' ≤ c && c ≤ '7' then
      let digits := (takeChars (fun d => '0' ≤ d && d ≤ '7') gs).take 3
      (digitsValue? 8 digits).bind fun n =>
        if n < 256 then some ([n.toUInt8], digits.length) else none
    else if c == 'u' then (codePoint? 4 rest).map fun n => (scalarBytes n, 5)
    else if c == 'U' then
      (codePoint? 8 rest).bind fun n =>
        if 0 ≤ n && n ≤ 0x10FFFF then some (scalarBytes n, 9) else none
    else (simpleEscapes.lookup c).map fun b => ([b], 1)
  | _ => none

/-- The bytes of a string up to its closing quote, the place behind it, and what follows. -/
def takeText (quote : Char) : Nat → Place → List Glyph → Option (List UInt8 × Place × List Glyph)
  | 0, _, _ => none
  | _, _, [] => none
  | fuel + 1, p, g :: rest =>
    if g.is quote then some ([], p.after g, rest)
    else if g.is '\n' || g.is '\x00' then none
    else if g.is '\\' then do
      let (bytes, count) ← escape? rest
      let (more, p, rest) ←
        takeText quote fuel ((p.after g).afterAll (rest.take count)) (rest.drop count)
      return (bytes ++ more, p, rest)
    else do
      let (more, p, rest) ← takeText quote fuel (p.after g) rest
      return (bytesOf (String.singleton g.toChar) ++ more, p, rest)

/-! ## Tokens -/

/-- Characters between tokens, the end of a line apart. -/
def isGap (c : Char) : Bool := c == ' ' || c == '\t' || c == '\r' || c == '\x0b' || c == '\x0c'

/-- Characters that start a name. -/
def startsName (c : Char) : Bool := c == '_' || c.isAlpha

/-- Characters that continue a name. -/
def continuesName (c : Char) : Bool := c == '_' || c.isAlphanum

/-- Punctuation marks. -/
def isMark (c : Char) : Bool := ";,.:=-+()\x7b\x7d[]<>/".toList.contains c

/-- What follows a comment to the end of the line; nothing when a null character stands in it. -/
def afterLine? : List Glyph → Option (List Glyph)
  | [] => some []
  | g :: rest =>
    if g.is '\n' then some (g :: rest) else if g.is '\x00' then none else afterLine? rest

/-- What follows a block comment, read from behind its opening mark, and the place there; nothing
when it does not end or a null character stands in it. -/
def afterBlock? (p : Place) : List Glyph → Option (Place × List Glyph)
  | [] => none
  | .char '*' :: .char '/' :: rest => some ({ p with column := p.column + 2 }, rest)
  | g :: rest => if g.is '\x00' then none else afterBlock? (p.after g) rest

/-- The tokens of `gs` from the place `p` on. -/
def tokensFrom : Nat → Place → List Glyph → List Token
  | 0, p, _ | _, p, [] => [⟨.finish, p.line, p.column + 1⟩]
  | _, p, .stray _ :: _ => [⟨.fault, p.line, p.column + 1⟩]
  | fuel + 1, p, .char c :: rest =>
    /- A token that ends the list when it is a fault. -/
    let emit (lexeme : Lexeme) (after : Place) (rest : List Glyph) : List Token :=
      ⟨lexeme, p.line, p.column + 1⟩ ::
        (if lexeme == .fault then [] else tokensFrom fuel after rest)
    let next := p.after (.char c)
    if c == '\n' || isGap c then tokensFrom fuel next rest
    else if startsName c then
      let tail := takeChars continuesName rest
      emit (.name (String.ofList (c :: tail))) { next with column := next.column + tail.length }
        (dropChars continuesName rest)
    else if c.isDigit || (c == '.' && (rest.head?.map (Glyph.all Char.isDigit)).getD false) then
      let (digits, rest) := takeNumber false rest
      emit (numberLexeme (c :: digits)) { next with column := next.column + digits.length } rest
    else if c == '"' || c == '\'' then
      match takeText c (rest.length + 1) next rest with
      | some (bytes, after, rest) => emit (.text bytes) after rest
      | none => emit .fault next rest
    else
      match c, rest with
      | '/', .char '/' :: rest =>
        match afterLine? rest with
        | some rest => tokensFrom fuel next rest
        | none => emit .fault next rest
      | '/', .char '*' :: rest =>
        match afterBlock? { next with column := next.column + 1 } rest with
        | some (after, rest) => tokensFrom fuel after rest
        | none => emit .fault next rest
      | c, rest => emit (if isMark c then .mark c else .fault) next rest

/-- The mark that some editors put in front of a file. -/
def byteOrderMark : Char := '﻿'

/-- The tokens of a file. -/
def tokenize (gs : List Glyph) : List Token :=
  let gs := match gs with
    | g :: rest => if g.is byteOrderMark then rest else gs
    | [] => []
  tokensFrom (gs.length + 1) {} gs

end ProtoStub.Definition
