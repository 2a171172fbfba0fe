import ProtoStub.Token.Numeral
import ProtoStub.Text.Split

/-!
# References between documents

Documents are addressed by URI references. This module decides which texts are such references: no
control characters, escapes of two hexadecimal digits, and no colon in the first segment of a path
unless a scheme stands before it.
-/

namespace ProtoStub.JsonSchema

open Text

/-- Every percent sign starts an escape of two hexadecimal digits. -/
def escapesFit : List Char → Bool
  | [] => true
  | c :: rest =>
    if c == '%' then
      match rest with
      | a :: b :: rest' => isHexDigit a && isHexDigit b && escapesFit rest'
      | _ => false
    else escapesFit rest

/-- How a reference starts. -/
inductive SchemeStart where
  /-- A scheme, with what follows its colon. -/
  | scheme (rest : List Char)
  | none
  /-- A colon with nothing before it. -/
  | missing
  deriving Repr, DecidableEq

/-- The scheme at the start of `cs`, of which `first` tells whether nothing has been read yet. -/
def schemeStart (first : Bool) : List Char → SchemeStart
  | [] => .none
  | c :: rest =>
    if c.isAlpha then schemeStart false rest
    else if c.isDigit || c == '+' || c == '-' || c == '.' then
      if first then .none else schemeStart false rest
    else if c == ':' then if first then .missing else .scheme rest
    else .none

/-- The part of a reference before its fragment is well formed. -/
def isAddress (cs : List Char) : Bool :=
  let pathFits (rest : List Char) : Bool := escapesFit (rest.takeWhile (· != '?'))
  cs.all (fun c => 32 ≤ c.toNat && c.toNat != 127) &&
    match schemeStart true cs with
    | .missing => false
    | .scheme rest => rest.head? != some '/' || pathFits rest
    | .none =>
      let path := cs.takeWhile (· != '?')
      (path.head? == some '/' || !(path.takeWhile (· != '/')).contains ':') && pathFits cs

/-- The text is a URI reference. -/
def isReference (s : String) : Bool :=
  let address := s.toList.takeWhile (· != '#')
  isAddress address && escapesFit (s.toList.drop (address.length + 1))

/-- The text is a URI reference without backslashes, as the rules for documents ask. -/
def isStrictReference (s : String) : Bool := isReference s && !s.toList.contains '\\'

end ProtoStub.JsonSchema
