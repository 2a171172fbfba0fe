import ProtoStub.Yaml
import ProtoStub.Text.Base64
import ProtoStub.Text.Integer
import ProtoStub.Text.Split

/-!
# What plain scalars mean

A plain scalar can be a null, a truth value, a number, a date, or a text. A tag can ask for one of
these, and a scalar that means something else is then refused.
-/

namespace ProtoStub.Yaml

open Text

/-- What a scalar means. -/
inductive Meaning where
  | null
  | truth (b : Bool)
  | int (n : Int)
  | float (x : Float)
  | timestamp
  | text (s : String)
  | merge

/-- The short form of a tag. -/
def shortTag (tag : String) : String :=
  let long := "tag:yaml.org,2002:"
  if startsWith tag long then "!!" ++ String.ofList (tag.toList.drop long.length) else tag

/-- The tag of a meaning. -/
def Meaning.tag : Meaning → String
  | .null => "!!null"
  | .truth _ => "!!bool"
  | .int _ => "!!int"
  | .float _ => "!!float"
  | .timestamp => "!!timestamp"
  | .text _ => "!!str"
  | .merge => "!!merge"

/-- The words that have a meaning. -/
def word? (s : String) : Option Meaning :=
  if ["true", "True", "TRUE"].contains s then some (.truth true)
  else if ["false", "False", "FALSE"].contains s then some (.truth false)
  else if ["", "~", "null", "Null", "NULL"].contains s then some .null
  else if [".nan", ".NaN", ".NAN"].contains s then some (.float (0.0 / 0.0))
  else if [".inf", ".Inf", ".INF", "+.inf", "+.Inf", "+.INF"].contains s then
    some (.float (1.0 / 0.0))
  else if ["-.inf", "-.Inf", "-.INF"].contains s then some (.float (-1.0 / 0.0))
  else none

/-! ## Numbers -/

/-- The number that decimal digits spell. -/
def digitsNat (ds : List Char) : Nat := ds.foldl (fun n d => n * 10 + (d.toNat - '0'.toNat)) 0

/-- The decimal exponent at the end of a number; nothing when something else stands there. -/
def exponent? (cs : List Char) : Option Int :=
  match cs with
  | [] => some 0
  | e :: rest =>
    let (negative, digits) := takeSign rest
    if (e == 'e' || e == 'E') && !digits.isEmpty && digits.all Char.isDigit then
      some (if negative then -(digitsNat digits) else digitsNat digits)
    else none

/-- How large an exponent can be without being out of reach. -/
def exponentLimit : Nat := 5000

/-- The floating-point number that digits with an exponent spell; nothing when it is too large. -/
def floatOf (negative : Bool) (mantissa : Nat) (exponent : Int) : Option Float :=
  let x :=
    if mantissa == 0 || exponent < -exponentLimit then 0.0
    else if exponent > exponentLimit then 1.0 / 0.0
    else Float.ofScientific mantissa (exponent < 0) exponent.natAbs
  if x.isInf then none else some (if negative then -x else x)

/-- The floating-point number that a decimal number spells. -/
def decimal? (s : String) : Option Float := do
  let (negative, cs) := takeSign s.toList
  let whole := cs.takeWhile Char.isDigit
  let rest := cs.dropWhile Char.isDigit
  let (fraction, rest) := match rest with
    | '.' :: more => (more.takeWhile Char.isDigit, more.dropWhile Char.isDigit)
    | rest => ([], rest)
  if whole.isEmpty && fraction.isEmpty then none
  let e ← exponent? rest
  floatOf negative (digitsNat (whole ++ fraction)) (e - fraction.length)

/-! ## Dates -/

/-- A number of one or two digits, from `least` to `most`, and the rest. -/
def takeSmall (least most : Nat) (cs : List Char) : Option (Nat × List Char) :=
  let digits := (cs.take 2).takeWhile Char.isDigit
  let n := digitsNat digits
  if digits.isEmpty || n < least || most < n then none else some (n, cs.drop digits.length)

/-- A character and the rest behind it. -/
def takeOne (c : Char) (cs : List Char) : Option (List Char) :=
  match cs with
  | d :: rest => if c == d then some rest else none
  | [] => none

/-- The days of a month. -/
def daysIn (year month : Nat) : Nat :=
  if month == 2 then if year % 4 == 0 && (year % 100 != 0 || year % 400 == 0) then 29 else 28
  else if [4, 6, 9, 11].contains month then 30 else 31

/-- A time of day, with a fraction of a second, after a point or a comma, if there is one. -/
def takeTime (cs : List Char) : Option (List Char) := do
  let (_, cs) ← takeSmall 0 23 cs
  let (_, cs) ← takeSmall 0 59 (← takeOne ':' cs)
  let (_, cs) ← takeSmall 0 59 (← takeOne ':' cs)
  match cs with
  | mark :: d :: rest =>
    return if (mark == '.' || mark == ',') && d.isDigit then rest.dropWhile Char.isDigit else cs
  | cs => return cs

/-- A time zone: a letter, or an offset of at most 24 hours and 60 minutes. -/
def isZone (cs : List Char) : Bool :=
  match cs with
  | ['Z'] => true
  | [sign, a, b, ':', c, d] =>
    (sign == '+' || sign == '-') && [a, b, c, d].all Char.isDigit && digitsNat [a, b] ≤ 24 &&
      digitsNat [c, d] ≤ 60
  | _ => false

/-- A date, alone, with a time in a zone after a letter, or with a time after blanks. -/
def isTimestamp (s : String) : Bool :=
  let digits := s.toList.takeWhile Char.isDigit
  let date : Option (List Char) := do
    if digits.length != 4 then none
    let (month, cs) ← takeSmall 1 12 (← takeOne '-' (s.toList.drop 4))
    let (_, cs) ← takeSmall 1 (daysIn (digitsNat digits) month) (← takeOne '-' cs)
    return cs
  match date with
  | none => false
  | some [] => true
  | some (c :: cs) =>
    if c == 'T' || c == 't' then (takeTime cs).any isZone
    else c == ' ' && (takeTime (cs.dropWhile (· == ' '))).any List.isEmpty

/-! ## Meanings -/

/-- The text without its underscores. -/
def withoutUnderscores (s : String) : String := String.ofList (s.toList.filter (· != '_'))

/-- A binary or octal number whose sign follows the mark of its radix. -/
def lateSign? (s : String) : Option Int :=
  let read (base : Nat) (cs : List Char) : Option Int := do
    let (negative, digits) := takeSign cs
    if digits.isEmpty then none
    let n ← (readDigits 64 base false 0 digits).toOption
    (withSign 64 negative n).toOption
  match s.toList with
  | '0' :: 'b' :: cs => read 2 cs
  | '0' :: 'o' :: cs => read 8 cs
  | _ => none

/-- The number that a text spells, which starts with a digit or a sign. -/
def number? (s : String) : Option Meaning :=
  let plain := withoutUnderscores s
  match readAnyInt plain, readAnyNat plain, decimal? plain with
  | .ok n, _, _ => some (.int n)
  | _, .ok n, _ => some (.int n)
  | _, _, some x => some (.float x)
  | _, _, none => (lateSign? plain).map .int

/-- Every underscore stands between two digits. -/
def underscoresSeparate (cs : List Char) : Bool :=
  (List.range cs.length).all fun i =>
    cs[i]? != some '_' || (0 < i && (cs[i - 1]?.any Char.isDigit) && (cs[i + 1]?.any Char.isDigit))

/-- The fraction that a text spells, which starts with a point. -/
def fraction? (s : String) : Option Meaning :=
  if underscoresSeparate s.toList then (decimal? (withoutUnderscores s)).map .float else none

/-- What a plain scalar means by itself. Dates only count when `dates` holds. -/
def plainMeaning (s : String) (dates : Bool) : Meaning :=
  let known : Option Meaning := match s.toList.head? with
    | none => some .null
    | some c =>
      if c == '.' then word? s <|> fraction? s
      else if c.isDigit || c == '+' || c == '-' then
        word? s <|> (if dates && isTimestamp s then some .timestamp else none) <|> number? s
      else if "yYnNtTfFoO~".toList.contains c then word? s
      else none
  known.getD (.text s)

/-- The tag of a scalar in short form, as it is written or as its meaning gives it. -/
def scalarTag (tag text : String) (isPlain : Bool) : String :=
  if tag != "" && tag != "!" then shortTag tag
  else if !isPlain then "!!str"
  else if text == "<<" then "!!merge"
  else (plainMeaning text true).tag

/-- What a scalar means. -/
def meaning (tag text : String) (isPlain : Bool) : Except Fault Meaning :=
  let written := if tag == "!" then "" else shortTag tag
  if written == "!!str" || (written == "" && !isPlain) then .ok (.text text)
  else if written == "!!binary" then
    match decodeBase64 text with
    | some bytes => .ok (.text (textOf bytes))
    | none => .error (.general "!!binary value contains invalid base64 data")
  else if written == "" then .ok (if text == "<<" then .merge else plainMeaning text true)
  else
    let found := plainMeaning text (written == "!!timestamp")
    match found with
    | .int n =>
      if written == "!!int" then .ok found
      else if written == "!!float" then .ok (.float (Float.ofInt n))
      else .error (.general ("cannot decode !!int \x60" ++ text ++ "\x60 as a " ++ written))
    | found =>
      if found.tag == written then .ok found
      else .error (.general
        ("cannot decode " ++ found.tag ++ " \x60" ++ text ++ "\x60 as a " ++ written))

end ProtoStub.Yaml
