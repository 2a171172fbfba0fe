import ProtoStub.Definition
import ProtoStub.Definition.Lexer

/-!
# Reading names, literals and options

`Reader` reads tokens from a list that ends with `finish` or `fault`, which no rule accepts; it
stops with the line of the first token that does not fit. Faults of meaning are noted on the way, in
the order of the declarations, and do not stop it. Nested rules take a bound on their depth, for
which the number of tokens is always enough.
-/

namespace ProtoStub.Definition

open Text

/-- A fault of meaning, by its line. -/
inductive Note where
  | fault (line : Nat)
  /-- A number that only a message set may use. -/
  | large (line : Nat)
  deriving Repr, DecidableEq, Inhabited

/-- The line of a fault. -/
def Note.line : Note → Nat
  | .fault line | .large line => line

/-- The tokens left, and the faults noted so far. -/
structure Cursor where
  tokens : List Token
  notes : List Note := []
  deriving Inhabited

/-- A rule: reads from a cursor, or stops with a line. -/
abbrev Reader (α : Type) : Type := StateT Cursor (Except Nat) α

namespace Reader

/-- The token `n` places ahead. -/
def ahead (n : Nat) : Reader Token := return (← get).tokens.getD n ⟨.finish, 0, 0⟩

/-- The next token. -/
def next : Reader Token := ahead 0

/-- Stops at the next token. -/
def stop : Reader α := do throw (← next).line

/-- Notes faults of meaning. -/
def noteAll (notes : List Note) : Reader Unit :=
  modify fun c => { c with notes := c.notes ++ notes }

/-- Notes a fault of meaning when `bad` holds. -/
def note (bad : Bool) (line : Nat) : Reader Unit := if bad then noteAll [.fault line] else return

/-- Follows a rule, and gives the faults it notes instead of keeping them. -/
def collect (rule : Reader α) : Reader (α × List Note) := do
  let before := (← get).notes
  modify fun c => { c with notes := [] }
  let a ← rule
  let notes := (← get).notes
  modify fun c => { c with notes := before }
  return (a, notes)

/-- Takes the next token. -/
def skip : Reader Unit := modify fun c => { c with tokens := c.tokens.drop 1 }

/-- The number of tokens left. -/
def remaining : Reader Nat := return (← get).tokens.length

/-- The next token is the mark `c`. -/
def sees (c : Char) : Reader Bool := return (← next).lexeme == .mark c

/-- The token `n` places ahead is the name `word`. -/
def seesWord (word : String) (n : Nat := 0) : Reader Bool := return (← ahead n).lexeme == .name word

/-- Takes the mark `c` if it comes next. -/
def accept (c : Char) : Reader Bool := do
  if ← sees c then
    skip
    return true
  return false

/-- Takes the name `word` if it comes next. -/
def acceptWord (word : String) : Reader Bool := do
  if ← seesWord word then
    skip
    return true
  return false

/-- Takes the mark `c`. -/
def mark (c : Char) : Reader Unit := do
  if !(← accept c) then stop

/-- Takes the name `word`. -/
def keyword (word : String) : Reader Unit := do
  if !(← acceptWord word) then stop

/-- Takes a name. -/
def name : Reader (At String) := do
  let t ← next
  match t.lexeme with
  | .name s =>
    skip
    return ⟨s, t.line⟩
  | _ => stop

/-- Takes an integer. -/
def natural : Reader (At Nat) := do
  let t ← next
  match t.lexeme with
  | .natural n =>
    skip
    return ⟨n, t.line⟩
  | _ => stop

/-- A number with a minus sign. It is kept in 64 bits, so that the largest ones come out
positive. -/
def negated (n : Nat) : Int := Int.bmod (-(n : Int)) 0x10000000000000000

/-- Takes an integer with or without a sign. -/
def integer : Reader (At Int) := do
  let line := (← next).line
  if ← accept '-' then
    return ⟨negated (← natural).value, line⟩
  return ⟨Int.ofNat (← natural).value, line⟩

/-- More strings behind a first one. -/
def moreTexts : Nat → List UInt8 → Reader (List UInt8)
  | 0, bytes => return bytes
  | fuel + 1, bytes => do
    match (← next).lexeme with
    | .text more =>
      skip
      moreTexts fuel (bytes ++ more)
    | _ => return bytes

/-- Takes a string, which may be written in several pieces. -/
def text : Reader (At (List UInt8)) := do
  let t ← next
  match t.lexeme with
  | .text bytes =>
    skip
    return ⟨← moreTexts (← remaining) bytes, t.line⟩
  | _ => stop

/-- More parts of a dotted name. -/
def moreNames : Nat → String → Reader String
  | 0, s => return s
  | fuel + 1, s => do
    if ← accept '.' then moreNames fuel (s ++ "." ++ (← name).value)
    else return s

/-- Takes a dotted name. -/
def dotted : Reader (At String) := do
  let first ← name
  return ⟨← moreNames (← remaining) first.value, first.line⟩

/-- Takes the name of a type, which may start with a dot. -/
def typeName : Reader (At String) := do
  let line := (← next).line
  if ← accept '.' then return ⟨"." ++ (← dotted).value, line⟩
  return ⟨(← dotted).value, line⟩

/-- Applies a rule to a growing result until the mark `close`. -/
def until_ (close : Char) (rule : α → Reader α) : Nat → α → Reader α
  | 0, _ => stop
  | fuel + 1, a => do
    if ← accept close then return a
    else until_ close rule fuel (← rule a)

/-- Applies a rule between the braces of a body. -/
def body (rule : α → Reader α) (a : α) : Reader α := do
  mark '{'
  until_ '}' rule (← remaining) a

/-- One or more results of a rule, with commas between them. -/
def commaList (rule : Reader α) : Nat → Reader (List α)
  | 0 => stop
  | fuel + 1 => do
    let first ← rule
    if ← accept ',' then return first :: (← commaList rule fuel)
    return [first]

/-! ## Values -/

/-- The words for values that are no numbers, behind a minus sign. Inside a message literal they
have more spellings. -/
def isSpecial (inLiteral : Bool) (word : String) : Bool :=
  if inLiteral then
    ["inf", "infinity", "nan"].contains (String.ofList (word.toList.map Char.toLower))
  else word == "inf" || word == "nan"

/-- Takes a value that is not nested. -/
def scalar (inLiteral : Bool) : Reader Value := do
  let t ← next
  match t.lexeme with
  | .text _ => return .text (← text).value
  | .natural n =>
    skip
    return .natural n
  | .real isZero =>
    skip
    return .real isZero
  | .name s =>
    skip
    return .word s
  | .mark '-' =>
    skip
    match (← next).lexeme with
    | .natural n =>
      skip
      return if n ≤ 0x8000000000000000 then .negative (-(n : Int)) else .real false
    | .real _ =>
      skip
      return .real false
    | .name s =>
      if isSpecial inLiteral s then
        skip
        return .real false
      else stop
    | _ => stop
  | _ => stop

/-- Takes the name of a field of a message literal: the name, its line, and its line behind a
bracket. -/
def literalName : Reader (LiteralName × Nat × Nat) := do
  let line := (← next).line
  if ← accept '[' then
    let first ← dotted
    if ← accept '/' then
      let second ← dotted
      mark ']'
      return (.address first.value second.value, line, first.line)
    mark ']'
    return (.extension first.value, line, first.line)
  return (.field (← name).value, line, line)

mutual

/-- Takes a message literal, or a plain value when `plain` allows it. -/
def literalItem (plain : Bool) : Nat → Reader (At Value)
  | 0 => stop
  | fuel + 1 => do
    let line := (← next).line
    if ← accept '{' then return ⟨.literal (← literalFields '}' fuel []), line⟩
    else if ← accept '<' then return ⟨.literal (← literalFields '>' fuel []), line⟩
    else if plain then return ⟨← scalar true, line⟩
    else stop

/-- Takes the members of a list up to its closing bracket. -/
def literalItems (plain : Bool) : Nat → Reader (List (At Value))
  | 0 => stop
  | fuel + 1 => do
    let first ← literalItem plain fuel
    if ← accept ',' then return first :: (← literalItems plain fuel)
    mark ']'
    return [first]

/-- Takes the value of a field of a message literal: a member of a list or a list. -/
def literalValue (plain : Bool) : Nat → Reader (At Value)
  | 0 => stop
  | fuel + 1 => do
    let line := (← next).line
    if ← accept '[' then
      if ← accept ']' then return ⟨.list [], line⟩
      return ⟨.list (← literalItems plain fuel), line⟩
    else literalItem plain fuel

/-- Takes the fields of a message literal up to the mark `close`. A value without a colon in front
of it is a message literal or a list of them. -/
def literalFields (close : Char) : Nat → List (Assignment Value) → Reader (List (Assignment Value))
  | 0, _ => stop
  | fuel + 1, done => do
    if ← accept close then return done
    let (name, line, innerLine) ← literalName
    let colon ← accept ':'
    let value ← literalValue colon fuel
    if !(← accept ',') then
      let _ ← accept ';'
    literalFields close fuel (done ++ [⟨name, line, innerLine, colon, value⟩])

end

/-- Takes the value of an option. -/
def value : Reader (At Value) := do
  let line := (← next).line
  if ← accept '{' then return ⟨.literal (← literalFields '}' (3 * (← remaining)) []), line⟩
  return ⟨← scalar false, line⟩

/-! ## Options -/

/-- Takes one part of the name of an option. -/
def namePart : Reader NamePart := do
  let line := (← next).line
  if ← accept '(' then
    let inner ← typeName
    mark ')'
    return ⟨inner.value, true, line⟩
  return ⟨(← name).value, false, line⟩

/-- More parts of the name of an option. -/
def moreParts : Nat → List NamePart → Reader (List NamePart)
  | 0, parts => return parts
  | fuel + 1, parts => do
    if ← accept '.' then moreParts fuel (parts ++ [← namePart])
    else return parts

/-- Takes an option: its name, an equals sign and its value. -/
def setting : Reader Setting := do
  let start := (← next).line
  let parts ← moreParts (← remaining) [← namePart]
  mark '='
  let v ← value
  return ⟨parts, v.value, v.line, start⟩

/-- Takes an option statement behind its keyword, which stands on the line `start`. -/
def optionStatement (start : Nat) : Reader Setting := do
  let s ← setting
  mark ';'
  return { s with start }

/-- Takes the options in brackets behind a declaration, if there are any. -/
def settings : Reader (List Setting) := do
  if ← accept '[' then
    let all ← commaList setting (← remaining)
    mark ']'
    return all
  return []

end Reader

end ProtoStub.Definition
