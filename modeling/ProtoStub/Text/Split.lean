/-!
# Cutting text at characters

`pieces` cuts a list of characters at every character of a class and keeps the empty pieces, so that
`n` cuts give `n + 1` pieces; `fields` drops the empty ones. `split` does the same for text at one
character.
-/

namespace ProtoStub.Text

/-- The pieces of `cs` between the characters of the class `p`. -/
def pieces (p : Char → Bool) : List Char → List (List Char)
  | [] => [[]]
  | c :: cs =>
    if p c then [] :: pieces p cs
    else match pieces p cs with
      | [] => [[c]]
      | piece :: rest => (c :: piece) :: rest

/-- The pieces of `cs` between the characters of the class `p` that are not empty. -/
def fields (p : Char → Bool) (cs : List Char) : List (List Char) :=
  (pieces p cs).filter (!·.isEmpty)

/-- The pieces of a text between the characters `c`. -/
def split (c : Char) (s : String) : List String :=
  (pieces (· == c) s.toList).map String.ofList

/-- The text before and after the first `c`; the whole text and nothing when there is none. -/
def cut (c : Char) (s : String) : String × Option String :=
  let head := s.toList.takeWhile (· != c)
  match s.toList.drop head.length with
  | [] => (s, none)
  | _ :: tail => (String.ofList head, some (String.ofList tail))

/-- The characters of `cs` without leading and trailing ones of the class `p`. -/
def trim (p : Char → Bool) (cs : List Char) : List Char :=
  ((cs.dropWhile p).reverse.dropWhile p).reverse

/-- White space of any kind. -/
def isSpace (c : Char) : Bool :=
  match c.toNat with
  | 0x09 | 0x0A | 0x0B | 0x0C | 0x0D | 0x20 | 0x85 | 0xA0 => true
  | 0x1680 | 0x2028 | 0x2029 | 0x202F | 0x205F | 0x3000 => true
  | n => 0x2000 ≤ n && n ≤ 0x200A

/-- A text without leading and trailing white space. -/
def trimSpace (s : String) : String := String.ofList (trim isSpace s.toList)

/-- Texts with `sep` between neighbours. -/
def join (sep : String) (parts : List String) : String := sep.intercalate parts

/-- `s` without the ending `tail`, when it has it. -/
def dropEnding (tail s : String) : String :=
  if s.toList.reverse.take tail.length == tail.toList.reverse
  then String.ofList (s.toList.take (s.length - tail.length)) else s

/-- `s` starts with `start`. -/
def startsWith (s start : String) : Bool := start.toList.isPrefixOf s.toList

/-- `s` ends with `tail`. -/
def endsWith (s tail : String) : Bool := tail.toList.isSuffixOf s.toList

/-- The start of `s` before its last `c`, when it has one. -/
def beforeLast? (c : Char) (s : String) : Option String :=
  match s.toList.reverse.dropWhile (· != c) with
  | [] => none
  | _ :: before => some (String.ofList before.reverse)

end ProtoStub.Text
