import ProtoStub.Text.Glyph

/-!
# Tokens of YAML text

The tokens that a YAML document is made of, with the places they start at. Blocks, which the text
shows by indentation, have tokens for their start and end. `Cursor` walks over the characters and
keeps the place.
-/

namespace ProtoStub.Yaml

open Text

/-- A place in the text. Lines and columns count from zero. -/
structure Mark where
  line : Nat := 0
  column : Nat := 0
  deriving Repr, DecidableEq, Inhabited

/-- The content of a token. -/
inductive Lexeme where
  | documentStart
  | documentEnd
  | blockSequenceStart
  | blockMappingStart
  | blockEnd
  | flowSequenceStart
  | flowSequenceEnd
  | flowMappingStart
  | flowMappingEnd
  | blockEntry
  | flowEntry
  | key
  | value
  | alias_ (name : String)
  | anchor (name : String)
  | tag (handle suffix : String)
  /-- A scalar; a plain one is written without quotes or block. -/
  | scalar (text : String) (isPlain : Bool)
  /-- The version of the language. -/
  | version (major : Nat)
  /-- A handle for tags. -/
  | handle (name start : String)
  | finish
  deriving Repr, DecidableEq, Inhabited

/-- A token at the place it starts at. -/
structure Token where
  lexeme : Lexeme
  mark : Mark
  deriving Repr, DecidableEq, Inhabited

/-- Why a text is no document. `context` is where the broken part starts and `place` where it
breaks. -/
inductive Fault where
  | lexical (context place : Mark) (text : String)
  | structural (context place : Mark) (text : String)
  /-- A fault that is not reported with a line. -/
  | general (text : String)
  deriving Repr, DecidableEq, Inhabited

/-- The wording of a fault. A line is told when the fault is not on the first one: that of the
context, or else that of the break. Structural faults count lines from zero. -/
def Fault.message (f : Fault) : String :=
  let told (context place : Mark) (offset : Nat) (text : String) : String :=
    let line := if context.line != 0 then context.line else place.line
    if line == 0 then text else "line " ++ toString (line + offset) ++ ": " ++ text
  "yaml: " ++ match f with
    | .lexical context place text => told context place 1 text
    | .structural context place text => told context place 0 text
    | .general text => text

/-! ## Characters -/

/-- A line break. -/
def isBreak (c : Char) : Bool :=
  c == '\n' || c == '\r' || c.toNat == 0x85 || c.toNat == 0x2028 || c.toNat == 0x2029

/-- A blank or a tab. -/
def isBlank (c : Char) : Bool := c == ' ' || c == '\t'

/-- A blank, a line break, or the end of the text. -/
def isGap : Option Char → Bool
  | none => true
  | some c => isBlank c || isBreak c

/-- A line break, or the end of the text. -/
def isLineEnd : Option Char → Bool
  | none => true
  | some c => isBreak c

/-- A character of a name. -/
def isWordChar (c : Char) : Bool := c.isAlphanum || c == '_' || c == '-'

/-- A character that a document may hold. -/
def isAllowed (c : Char) : Bool :=
  let n := c.toNat
  n == 0x09 || n == 0x0A || n == 0x0D || (0x20 ≤ n && n ≤ 0x7E) || n == 0x85 ||
    (0xA0 ≤ n && n ≤ 0xD7FF) || (0xE000 ≤ n && n ≤ 0xFFFD) || 0x10000 ≤ n

/-- What is wrong with bytes that start with no character. -/
def byteFault (bytes : List UInt8) : String :=
  match bytes with
  | [] => ""
  | b :: rest =>
    let width := if 0xC0 ≤ b && b < 0xE0 then 2 else if 0xE0 ≤ b && b < 0xF0 then 3
      else if 0xF0 ≤ b && b < 0xF8 then 4 else 0
    if width == 0 then "invalid leading UTF-8 octet"
    else if bytes.length < width then "incomplete UTF-8 octet sequence"
    else if (rest.take (width - 1)).any (!isTail ·) then "invalid trailing UTF-8 octet"
    else if b == 0xC0 || b == 0xC1 then "invalid length of a UTF-8 sequence"
    else "invalid Unicode character"

/-- The characters of a text, if all may stand in a document. -/
def characters : List UInt8 → Except Fault (List Char)
  | [] => .ok []
  | b :: bs =>
    match sequenceAt b bs with
    | none => .error (.general (byteFault (b :: bs)))
    | some (c, n) =>
      if isAllowed c then (characters (bs.drop n)).map (c :: ·)
      else .error (.general "control characters are not allowed")
termination_by bs => bs.length
decreasing_by simp only [List.length_cons, List.length_drop]; omega

/-! ## Cursors -/

/-- What is left of a text, and the place where it starts. -/
structure Cursor where
  rest : List Char
  index : Nat := 0
  mark : Mark := {}
  deriving Repr, DecidableEq, Inhabited

namespace Cursor

/-- The character `n` places ahead. -/
def peek (c : Cursor) (n : Nat := 0) : Option Char := c.rest[n]?

/-- The next character is `ch`. -/
def sees (c : Cursor) (ch : Char) : Bool := c.rest.head? == some ch

/-- Passes over `n` characters of the line. -/
def skip (c : Cursor) (n : Nat := 1) : Cursor :=
  let n := min n c.rest.length
  ⟨c.rest.drop n, c.index + n, { c.mark with column := c.mark.column + n }⟩

/-- Passes over a line break, and gives it in its usual form. -/
def takeBreak (c : Cursor) : List Char × Cursor :=
  let next (n : Nat) : Cursor := ⟨c.rest.drop n, c.index + n, ⟨c.mark.line + 1, 0⟩⟩
  match c.rest with
  | '\r' :: '\n' :: _ => (['\n'], next 2)
  | ch :: _ =>
    if ch.toNat == 0x2028 || ch.toNat == 0x2029 then ([ch], next 1)
    else if isBreak ch then (['\n'], next 1) else ([], c)
  | [] => ([], c)

/-- Passes over the characters of the line in the class `p`. -/
def skipWhile (p : Char → Bool) (c : Cursor) : Cursor := c.skip (c.rest.takeWhile p).length

/-- Three characters at the start of a line end or start a document. -/
def atIndicator (c : Cursor) : Bool :=
  c.mark.column == 0 && isGap (c.peek 3) &&
    (c.rest.take 3 == ['-', '-', '-'] || c.rest.take 3 == ['.', '.', '.'])

end Cursor

end ProtoStub.Yaml
