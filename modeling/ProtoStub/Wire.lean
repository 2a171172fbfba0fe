import ProtoStub.Text.Glyph

/-!
# The wire format of messages

A message is written as a sequence of fields, each with its number and a value whose form is told by
the tag. `read` gives the fields in their order. Groups have to be closed, and what stands in them
is left out, since no message that is read here has one.
-/

namespace ProtoStub.Wire

/-- The value of a field. -/
inductive Value where
  | varint (n : Nat)
  | bytes (content : List UInt8)
  /-- A number of a fixed width, in four or eight bytes. -/
  | fixed (content : List UInt8)
  deriving Repr, DecidableEq, Inhabited

/-- The fields of a message by number, in their order. -/
abbrev Fields : Type := List (Nat × Value)

/-- The longest form of a number, in bytes. -/
def maxVarint : Nat := 10

/-- A number in groups of seven bits, the lowest first; the high bit of a byte tells that more
follow. `place` counts the bytes that were read. -/
def varintFrom (place : Nat) : List UInt8 → Option (Nat × List UInt8)
  | [] => none
  | b :: rest =>
    if place + 1 == maxVarint && b > 1 then none
    else if b < 128 then some (b.toNat * Nat.pow 128 place, rest)
    else if place + 1 == maxVarint then none
    else (varintFrom (place + 1) rest).map fun (high, rest) =>
      ((b.toNat - 128) * Nat.pow 128 place + high, rest)

/-- A number at the start of some bytes, and what follows it. -/
def varint (bytes : List UInt8) : Option (Nat × List UInt8) := varintFrom 0 bytes

/-- The first `n` bytes and what follows them. -/
def takeExactly (n : Nat) (bytes : List UInt8) : Option (List UInt8 × List UInt8) :=
  if n ≤ bytes.length then some (bytes.take n, bytes.drop n) else none

/-- What a tag announces. -/
inductive Step where
  | value (v : Value)
  | opening
  | closing

/-- The value that a tag of form `form` announces, and what follows it. -/
def valueOf (form : Nat) (bytes : List UInt8) : Option (Step × List UInt8) := do
  match form with
  | 0 => let (n, rest) ← varint bytes; return (.value (.varint n), rest)
  | 1 => let (content, rest) ← takeExactly 8 bytes; return (.value (.fixed content), rest)
  | 2 =>
    let (n, rest) ← varint bytes
    let (content, rest) ← takeExactly n rest
    return (.value (.bytes content), rest)
  | 3 => return (.opening, bytes)
  | 4 => return (.closing, bytes)
  | 5 => let (content, rest) ← takeExactly 4 bytes; return (.value (.fixed content), rest)
  | _ => none

/-- The largest number of a field: inside groups, which nobody reads, more are allowed. -/
def maxFieldNumber (inGroup : Bool) : Nat := if inGroup then 0x7FFFFFFF else 0x1FFFFFFF

/-- Reads fields until the bytes end. `opened` holds the numbers of the groups that are open, and
`fuel` is more than the number of bytes. -/
def readFrom : (fuel : Nat) → (opened : List Nat) → List UInt8 → Option Fields
  | 0, _, _ => none
  | _ + 1, opened, [] => if opened.isEmpty then some [] else none
  | fuel + 1, opened, bytes => do
    let (tag, rest) ← varint bytes
    let number := tag / 8
    if number == 0 || number > maxFieldNumber (!opened.isEmpty) then none
    else
      match ← valueOf (tag % 8) rest with
      | (.value v, rest) =>
        let more ← readFrom fuel opened rest
        return if opened.isEmpty then (number, v) :: more else more
      | (.opening, rest) => readFrom fuel (number :: opened) rest
      | (.closing, rest) =>
        match opened with
        | [] => none
        | last :: outer => if last == number then readFrom fuel outer rest else none

/-- The fields of a message. -/
def read (bytes : List UInt8) : Option Fields := readFrom (bytes.length + 1) [] bytes

namespace Fields

/-- The contents of the field `number`, in their order. -/
def parts (fs : Fields) (number : Nat) : List (List UInt8) :=
  fs.filterMap fun (n, v) =>
    match v with
    | .bytes content => if n == number then some content else none
    | _ => none

/-- A message that occurs more than once is one message with all the fields. -/
def merged (fs : Fields) (number : Nat) : List UInt8 := (fs.parts number).flatten

/-- The texts of the field `number`. -/
def texts (fs : Fields) (number : Nat) : List String := (fs.parts number).map Text.textOf

/-- The text of the field `number`, the last one if it occurs more than once. -/
def text? (fs : Fields) (number : Nat) : Option String := (fs.texts number).getLast?

/-- The text of the field `number`; empty when it is not there. -/
def text (fs : Fields) (number : Nat) : String := (fs.text? number).getD ""

/-- A number as a signed one of 32 bits. -/
def signed (n : Nat) : Int := Int.bmod n 0x100000000

/-- Numbers one after another. -/
def unpack : (fuel : Nat) → List UInt8 → Option (List Int)
  | _, [] => some []
  | 0, _ => none
  | fuel + 1, bytes => do
    let (n, rest) ← varint bytes
    return signed n :: (← unpack fuel rest)

/-- The numbers of the field `number`, written one by one or together. -/
def ints (fs : Fields) (number : Nat) : Option (List Int) :=
  (fs.filter (·.1 == number)).foldlM (fun before (_, v) =>
    match v with
    | .varint n => some (before ++ [signed n])
    | .bytes content => (unpack content.length content).map (before ++ ·)
    | .fixed _ => some before) []

/-- The number of the field `number`, the last one if it occurs more than once. -/
def int? (fs : Fields) (number : Nat) : Option Int :=
  (fs.filterMap fun (n, v) =>
    match v with
    | .varint value => if n == number then some (signed value) else none
    | _ => none).getLast?

/-- The number of the field `number`; zero when it is not there. -/
def int (fs : Fields) (number : Nat) : Int := (fs.int? number).getD 0

/-- The truth value of the field `number`. -/
def flag (fs : Fields) (number : Nat) : Bool :=
  ((fs.filterMap fun (n, v) =>
    match v with
    | .varint value => if n == number then some (value != 0) else none
    | _ => none).getLast?).getD false

end Fields

end ProtoStub.Wire
