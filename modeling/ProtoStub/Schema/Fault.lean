import ProtoStub.Token

/-!
# Faults of schema syntax

Why the tokens of a file are no schema, and the wording of each reason. A token that was needed but
not there is named by what stands in its place, which may be the end of the file.
-/

namespace ProtoStub.Schema

open Text

/-- The kinds of braced blocks that carry a name. -/
inductive BlockKind where
  | message
  | enum
  | service
  | rpc
  deriving Repr, DecidableEq, Inhabited

/-- The word that introduces a block. -/
def BlockKind.word : BlockKind → String
  | .message => "message"
  | .enum => "enum"
  | .service => "service"
  | .rpc => "rpc"

/-- A reason why tokens are no schema. `found` is the token in the way, or nothing at the end of the
file. -/
inductive Fault where
  | unexpected (found : Lexeme)
  | unexpectedInService (found : Lexeme) (service : String)
  | unexpectedEnd
  | expectedSymbol (c : Char) (found : Option Lexeme)
  | expectedIdent (found : Option Lexeme)
  | expectedImportPath (found : Option Lexeme)
  | expectedFieldNumber (found : Option Lexeme)
  | invalidFieldNumber (spelling : String)
  | expectedEnumValue (found : Option Lexeme)
  | invalidEnumValue (spelling : String)
  | enumValueOutOfRange (value : Int)
  | expectedReturns (found : Option Lexeme)
  | expectedRpcEnd (rpc : String)
  | unterminated (kind : BlockKind) (name : String)
  | unterminatedOneof
  deriving Repr, DecidableEq, Inhabited

/-- What stands at some place of a file, between double quotes. -/
def quoteFound : Option Lexeme → String
  | some l => l.quoted
  | none => quoteText "end of file"

/-- The wording of a syntax fault. -/
def Fault.message : Fault → String
  | .unexpected l => "unexpected " ++ l.quoted
  | .unexpectedInService l s => "unexpected " ++ l.quoted ++ " in service " ++ s
  | .unexpectedEnd => "unexpected end of file"
  | .expectedSymbol c f =>
    "expected " ++ quoteText (String.ofList [c]) ++ ", found " ++ quoteFound f
  | .expectedIdent f => "expected identifier, found " ++ quoteFound f
  | .expectedImportPath f => "expected import path, found " ++ quoteFound f
  | .expectedFieldNumber f => "expected field number, found " ++ quoteFound f
  | .invalidFieldNumber s => "invalid field number " ++ quoteText s
  | .expectedEnumValue f => "expected enum value, found " ++ quoteFound f
  | .invalidEnumValue s => "invalid enum value " ++ quoteText s
  | .enumValueOutOfRange n => "enum value " ++ toString n ++ " out of range"
  | .expectedReturns f => "expected returns, found " ++ quoteFound f
  | .expectedRpcEnd n => "expected ';' or '\x7b' after rpc " ++ n
  | .unterminated k n => "unterminated " ++ k.word ++ " " ++ n
  | .unterminatedOneof => "unterminated oneof"

/-- Why the tokens of a file were refused. A missing line means the end of the file. -/
inductive Refusal where
  | fault (line : Option Nat) (fault : Fault)
  /-- A group field, which has no place in the model. -/
  | group (line : Nat)
  deriving Repr, DecidableEq, Inhabited

end ProtoStub.Schema
