import ProtoStub.Text.Glyph
import ProtoStub.Text.Quoted

/-!
# Tokens of the schema language

A token is a lexeme with the line it starts on. Lexemes keep what later stages need: the spelling of
names and numbers, and the value of a string literal as bytes, since an escape may write any byte.
-/

namespace ProtoStub

open Text

/-- What a token is, without its position. -/
inductive Lexeme where
  /-- A name: a letter or underscore, then letters, digits and underscores. -/
  | ident (name : String)
  /-- An integer literal as spelled. -/
  | int (spelling : String)
  /-- A floating-point literal as spelled. -/
  | float (spelling : String)
  /-- A string literal by value. -/
  | string (value : List UInt8)
  /-- Any other single character. -/
  | symbol (c : Char)
  deriving Repr, DecidableEq, Inhabited

/-- A lexeme at a line, counted from one. -/
structure Token where
  lexeme : Lexeme
  line : Nat
  deriving Repr, DecidableEq, Inhabited

namespace Lexeme

/-- The lexeme between double quotes, as messages show it. -/
def quoted : Lexeme → String
  | .ident s | .int s | .float s => quoteText s
  | .string v => quoteBytes v
  | .symbol c => quoteText (String.ofList [c])

end Lexeme

namespace Token

/-- The token is the character `c`. -/
def isSymbol (t : Token) (c : Char) : Bool := t.lexeme == .symbol c

/-- The token is the word `w`. -/
def isWord (t : Token) (w : String) : Bool := t.lexeme == .ident w

end Token

/-- The first token is the character `c`. -/
def startsWithSymbol (ts : List Token) (c : Char) : Bool :=
  match ts with
  | t :: _ => t.isSymbol c
  | [] => false

/-- The first token is the word `w`. -/
def startsWithWord (ts : List Token) (w : String) : Bool :=
  match ts with
  | t :: _ => t.isWord w
  | [] => false

end ProtoStub
