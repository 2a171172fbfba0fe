import ProtoStub.Text.Integer
import ProtoStub.Text.Letter
import ProtoStub.Text.Split
import ProtoStub.Json

/-!
# Logging

A log is a list of records; a format turns each record that reaches the threshold into a line.
Levels are numbers, so that a threshold can lie between two of them.
-/

namespace ProtoStub

open Text

/-- How much a record matters. -/
inductive Level where
  | debug
  | info
  | warn
  | error
  deriving Repr, DecidableEq, Inhabited

namespace Level

/-- The name of a level. -/
def name : Level → String
  | .debug => "DEBUG"
  | .info => "INFO"
  | .warn => "WARN"
  | .error => "ERROR"

/-- The rank of a level. -/
def rank : Level → Int
  | .debug => -4
  | .info => 0
  | .warn => 4
  | .error => 8

/-- The level with the given name. -/
def ofName? (s : String) : Option Level :=
  [debug, info, warn, error].find? (·.name == s)

/-- The threshold that a text names: a level in any case, with an offset behind it if it has a
sign. -/
def threshold? (s : String) : Option Int := do
  let isSign (c : Char) : Bool := c == '+' || c == '-'
  let name := s.toList.takeWhile (!isSign ·)
  let offset := s.toList.drop name.length
  let level ← ofName? (String.ofList (name.map toUpper))
  let n ← if offset.isEmpty then some 0 else (readInt (String.ofList offset)).toOption
  return Int.bmod (level.rank + n) 0x10000000000000000

end Level

/-- The value of an attribute of a record. -/
inductive LogValue where
  | text (s : String)
  | number (n : Int)
  deriving Repr, DecidableEq, Inhabited

/-- One record of a log. -/
structure LogRecord where
  level : Level
  message : String
  attributes : List (String × LogValue) := []
  deriving Repr, DecidableEq, Inhabited

/-- The form of the lines of a log. -/
inductive LogFormat where
  | text
  | json
  deriving Repr, DecidableEq, Inhabited

namespace LogRecord

/-- A character that a plain value cannot have. -/
def needsQuotes (c : Char) : Bool :=
  if c.toNat < 128 then c.toNat ≤ 32 || c == '=' || c == '"'
  else c.toNat == 0xFFFD || isSpace c || !isPrintable c

/-- A text as a value of a text line: plain if it can be. -/
def plainOrQuoted (s : String) : String :=
  if s == "" || s.toList.any needsQuotes then quoteText s else s

/-- A value in a text line. -/
def textValue : LogValue → String
  | .text s => plainOrQuoted s
  | .number n => toString n

/-- A value in a JSON line. -/
def jsonValue : LogValue → String
  | .text s => Json.quote false s
  | .number n => toString n

/-- All attributes of a record, its level and message first. -/
def all (r : LogRecord) : List (String × LogValue) :=
  ("level", .text r.level.name) :: ("msg", .text r.message) :: r.attributes

/-- The line of a record. -/
def line (format : LogFormat) (r : LogRecord) : String :=
  match format with
  | .text => join " " (r.all.map fun (k, v) => k ++ "=" ++ textValue v) ++ "\n"
  | .json =>
    "\x7b" ++ join "," (r.all.map fun (k, v) =>
      Json.quote false k ++ ":" ++ jsonValue v) ++ "\x7d\n"

end LogRecord

/-- How a log is shown. -/
structure Logger where
  threshold : Int := Level.info.rank
  format : LogFormat := .text
  deriving Repr, DecidableEq, Inhabited

/-- The lines of the records that reach the threshold. -/
def Logger.render (l : Logger) (records : List LogRecord) : String :=
  join "" ((records.filter fun r => l.threshold ≤ r.level.rank).map (·.line l.format))

end ProtoStub
