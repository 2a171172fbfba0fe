import ProtoStub.Text.Quoted
import ProtoStub.Text.Split

/-!
# Durations

A duration is a number of nanoseconds that 64 bits hold. It is written with units, the largest that
fits first: `1h30m0s`, `1.5s`, `300ms`. Reading takes any sequence of decimal numbers with units and
one sign in front.
-/

namespace ProtoStub

open Text

/-- A span of time. -/
structure Duration where
  nanoseconds : Int
  deriving Repr, DecidableEq, Inhabited

namespace Duration

/-- Why a text is no duration. -/
inductive Fault where
  | malformed (text : String)
  | missingUnit (text : String)
  | unknownUnit (unit text : String)
  deriving Repr, DecidableEq, Inhabited

/-- The wording of a fault. -/
def Fault.message : Fault → String
  | .malformed text => "time: invalid duration " ++ quoteText text
  | .missingUnit text => "time: missing unit in duration " ++ quoteText text
  | .unknownUnit unit text =>
    "time: unknown unit " ++ quoteText unit ++ " in duration " ++ quoteText text

/-- A microsecond, a millisecond, a second and a minute in nanoseconds. -/
def microsecond : Nat := 1000
@[inherit_doc microsecond] def millisecond : Nat := 1000000
@[inherit_doc microsecond] def second : Nat := 1000000000
@[inherit_doc microsecond] def minute : Nat := 60000000000

/-- The units in nanoseconds. The sign of the micro comes in two code points. -/
def units : List (String × Nat) :=
  [("ns", 1), ("us", microsecond), ("µs", microsecond), ("μs", microsecond), ("ms", millisecond),
    ("s", second), ("m", minute), ("h", 60 * minute)]

/-- The largest amount: the least negative duration has it. -/
def limit : Nat := 0x8000000000000000

/-! ## Reading -/

/-- The number that digits spell. -/
def digitsValue (ds : List Char) : Nat := ds.foldl (fun n d => n * 10 + (d.toNat - '0'.toNat)) 0

/-- The digits of a fraction that count: as many as a number of 63 bits holds. -/
def fractionDigits (kept : List Char) : List Char → List Char
  | [] => kept
  | d :: ds =>
    if digitsValue kept > (limit - 1) / 10 || digitsValue (kept ++ [d]) > limit then kept
    else fractionDigits (kept ++ [d]) ds

/-- The part of a unit that the digits after the point stand for, computed in floating point and cut
to a whole number. -/
def fractionOf (unit : Nat) (digits : List Char) : Nat :=
  let kept := fractionDigits [] digits
  let scale := (Nat.pow 10 kept.length).toFloat
  ((digitsValue kept).toFloat * (unit.toFloat / scale)).toUInt64.toNat

/-- A digit or a decimal point. -/
def isNumeric (c : Char) : Bool := c.isDigit || c == '.'

/-- The first term of a text, a decimal number and a unit, in nanoseconds; and the rest. -/
def readTerm (text : String) (cs : List Char) : Except Fault (Nat × List Char) := do
  let whole := cs.takeWhile Char.isDigit
  let rest := cs.dropWhile Char.isDigit
  let (fraction, rest) := match rest with
    | '.' :: more => (more.takeWhile Char.isDigit, more.dropWhile Char.isDigit)
    | rest => ([], rest)
  if whole.isEmpty && fraction.isEmpty then throw (.malformed text)
  if digitsValue whole > limit then throw (.malformed text)
  let unit := String.ofList (rest.takeWhile (!isNumeric ·))
  if unit == "" then throw (.missingUnit text)
  match units.lookup unit with
  | none => throw (.unknownUnit unit text)
  | some size =>
    if digitsValue whole > limit / size then throw (.malformed text)
    let amount := digitsValue whole * size +
      (if digitsValue (fractionDigits [] fraction) > 0 then fractionOf size fraction else 0)
    if amount > limit then throw (.malformed text)
    return (amount, rest.dropWhile (!isNumeric ·))

/-- The sum of the terms of a text. `fuel` is at least the number of characters. -/
def readTerms (text : String) : (fuel : Nat) → (sum : Nat) → List Char → Except Fault Nat
  | _, sum, [] => .ok sum
  | 0, _, _ => .error (.malformed text)
  | fuel + 1, sum, cs => do
    let (amount, rest) ← readTerm text cs
    if sum + amount > limit then throw (.malformed text)
    readTerms text fuel (sum + amount) rest

/-- The duration that a text spells. -/
def parse (text : String) : Except Fault Duration := do
  let (negative, cs) := match text.toList with
    | '-' :: cs => (true, cs)
    | '+' :: cs => (false, cs)
    | cs => (false, cs)
  if cs == ['0'] then return ⟨0⟩
  if cs.isEmpty then throw (.malformed text)
  let amount ← readTerms text cs.length 0 cs
  if negative then return ⟨-amount⟩
  if amount == limit then throw (.malformed text)
  return ⟨amount⟩

/-! ## Writing -/

/-- A number in `width` digits, without the zeros at its end. -/
def shortDigits (width n : Nat) : List Char :=
  let digits := (toString n).toList
  let padded := List.replicate (width - digits.length) '0' ++ digits
  (padded.reverse.dropWhile (· == '0')).reverse

/-- `n` divided by the power `width` of ten, in decimal digits. -/
def decimal (width n : Nat) : String :=
  let fraction := shortDigits width (n % Nat.pow 10 width)
  toString (n / Nat.pow 10 width) ++
    (if width == 0 || fraction.isEmpty then "" else "." ++ String.ofList fraction)

/-- An amount of nanoseconds with its units. -/
def amountText (n : Nat) : String :=
  if n == 0 then "0s"
  else if n < microsecond then decimal 0 n ++ "ns"
  else if n < millisecond then decimal 3 n ++ "µs"
  else if n < second then decimal 6 n ++ "ms"
  else
    let minutes := n / minute
    let seconds := decimal 9 (n % minute) ++ "s"
    if minutes == 0 then seconds
    else if minutes < 60 then toString minutes ++ "m" ++ seconds
    else toString (minutes / 60) ++ "h" ++ toString (minutes % 60) ++ "m" ++ seconds

/-- A duration with its units. -/
def toText (d : Duration) : String :=
  (if d.nanoseconds < 0 then "-" else "") ++ amountText d.nanoseconds.natAbs

end Duration

end ProtoStub
