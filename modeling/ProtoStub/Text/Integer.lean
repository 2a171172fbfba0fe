import ProtoStub.Text.Quoted

/-!
# Integers in text

`readInt` reads a whole text as an integer with a sign, in decimal digits; `readAnyInt` also takes
the notations of other radices, announced by a leading zero, and underscores between digits. The
integer has to fit into a number of bits, and a text that is no integer is told from one that is too
large.
-/

namespace ProtoStub.Text

/-- Why a text is not read as an integer. -/
inductive IntFault where
  | malformed
  | outOfRange
  deriving Repr, DecidableEq, Inhabited

/-- The value of a digit of any radix up to thirty-six. -/
def digitValue? (c : Char) : Option Nat :=
  if c.isDigit then some (c.toNat - '0'.toNat)
  else if 'a' ≤ c && c ≤ 'z' then some (c.toNat - 'a'.toNat + 10)
  else if 'A' ≤ c && c ≤ 'Z' then some (c.toNat - 'A'.toNat + 10)
  else none

/-- The number that digits of the radix `base` spell after `value`; it has to stay below `2 ^ bits`
all the way. Underscores are passed over when `loose` holds. -/
def readDigits (bits base : Nat) (loose : Bool) (value : Nat) : List Char → Except IntFault Nat
  | [] => .ok value
  | c :: cs =>
    if loose && c == '_' then readDigits bits base loose value cs
    else match digitValue? c with
      | none => .error .malformed
      | some d =>
        if base ≤ d then .error .malformed
        else if Nat.pow 2 bits ≤ value * base + d then .error .outOfRange
        else readDigits bits base loose (value * base + d) cs

/-- The radix that the start of a number announces, and the digits that follow. -/
def radixOf (cs : List Char) : Nat × List Char :=
  match cs with
  | '0' :: mark :: d :: ds =>
    match mark.toLower with
    | 'x' => (16, d :: ds)
    | 'o' => (8, d :: ds)
    | 'b' => (2, d :: ds)
    | _ => (8, mark :: d :: ds)
  | '0' :: ds => (8, ds)
  | cs => (10, cs)

/-- Every underscore stands between two digits; the mark of a radix counts as one. `digit` tells
that a digit stands before. -/
def underscoresFit (digit : Bool) : List Char → Bool
  | [] => true
  | '_' :: cs => digit && (cs.head?.map (· != '_')).getD false && underscoresFit false cs
  | _ :: cs => underscoresFit true cs

/-- The sign of a number and what follows it. -/
def takeSign : List Char → Bool × List Char
  | '-' :: cs => (true, cs)
  | '+' :: cs => (false, cs)
  | cs => (false, cs)

/-- A number with its sign, if the bits hold it. -/
def withSign (bits : Nat) (negative : Bool) (n : Nat) : Except IntFault Int :=
  if negative then if n ≤ Nat.pow 2 (bits - 1) then .ok (-n) else .error .outOfRange
  else if n < Nat.pow 2 (bits - 1) then .ok n else .error .outOfRange

/-- The integer that a text spells in decimal digits. -/
def readInt (s : String) (bits : Nat := 64) : Except IntFault Int := do
  let (negative, digits) := takeSign s.toList
  if digits.isEmpty then throw .malformed
  withSign bits negative (← readDigits bits 10 false 0 digits)

/-- The number without sign that a text spells in any notation. -/
def readAnyNat (s : String) (bits : Nat := 64) : Except IntFault Nat := do
  if s == "" then throw .malformed
  let (base, digits) := radixOf s.toList
  let n ← readDigits bits base true 0 digits
  if !underscoresFit (base != 10) digits then throw .malformed
  return n

/-- The integer that a text spells in any notation. -/
def readAnyInt (s : String) (bits : Nat := 64) : Except IntFault Int := do
  let (negative, cs) := takeSign s.toList
  if cs.isEmpty then throw .malformed
  let (base, digits) := radixOf cs
  let n ← readDigits bits base true 0 digits
  if !underscoresFit (base != 10) digits then throw .malformed
  withSign bits negative n

end ProtoStub.Text
