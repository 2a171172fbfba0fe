import ProtoStub.Text.Glyph

/-!
# Bytes as text in base 64

Three bytes are written as four digits of base 64. A last group of one or two bytes is filled up
with equals signs. Line breaks can stand anywhere. `decodeBase64` reads the bytes back; of the last
digit before an equals sign the bits that belong to no byte are passed over.
-/

namespace ProtoStub.Text

/-- The value of a digit of base 64. -/
def sextet? (c : Char) : Option Nat :=
  if 'A' ≤ c && c ≤ 'Z' then some (c.toNat - 'A'.toNat)
  else if 'a' ≤ c && c ≤ 'z' then some (c.toNat - 'a'.toNat + 26)
  else if '0' ≤ c && c ≤ '9' then some (c.toNat - '0'.toNat + 52)
  else if c == '+' then some 62
  else if c == '/' then some 63
  else none

/-- The three bytes of four digits. -/
def bytesOfGroup (a b c d : Nat) : List UInt8 :=
  [(a * 4 + b / 16).toUInt8, (b % 16 * 16 + c / 4).toUInt8, (c % 4 * 64 + d).toUInt8]

/-- The bytes of groups of four digits, of which the last can be filled up. -/
def bytesOfGroups : List Char → Option (List UInt8)
  | [] => some []
  | [a, b, '=', '='] => do return (bytesOfGroup (← sextet? a) (← sextet? b) 0 0).take 1
  | [a, b, c, '='] => do return (bytesOfGroup (← sextet? a) (← sextet? b) (← sextet? c) 0).take 2
  | a :: b :: c :: d :: rest => do
    let group := bytesOfGroup (← sextet? a) (← sextet? b) (← sextet? c) (← sextet? d)
    return group ++ (← bytesOfGroups rest)
  | _ => none

/-- The bytes that a text in base 64 stands for; nothing when it is malformed. -/
def decodeBase64 (s : String) : Option (List UInt8) :=
  bytesOfGroups (s.toList.filter fun c => c != '\r' && c != '\n')

end ProtoStub.Text
