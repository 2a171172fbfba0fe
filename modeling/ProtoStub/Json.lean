import ProtoStub.Text.Quoted

/-!
# JSON text

JSON values as they are written: objects keep the order they are given, numbers are integers.
`Json.pretty` writes a value over several lines. Characters that mean something inside a web page
can be escaped as well.
-/

namespace ProtoStub

open Text

/-- A JSON value. -/
inductive Json where
  | num (n : Int)
  | str (s : String)
  | arr (items : List Json)
  | obj (members : List (String × Json))
  deriving Repr, Inhabited

namespace Json

/-- A character inside a JSON string. With `web`, the characters `<`, `>` and `&` are escaped. -/
def escapeChar (web : Bool) (c : Char) : List Char :=
  let code := '\\' :: 'u' :: hexDigits 4 c.toNat
  match c with
  | '"' => ['\\', '"']
  | '\\' => ['\\', '\\']
  | '\n' => ['\\', 'n']
  | '\r' => ['\\', 'r']
  | '\t' => ['\\', 't']
  | c =>
    if c.toNat == 8 then ['\\', 'b']
    else if c.toNat == 12 then ['\\', 'f']
    else if c.toNat < 32 || c.toNat == 0x2028 || c.toNat == 0x2029 then code
    else if web && (c == '<' || c == '>' || c == '&') then code
    else [c]

/-- A JSON string. -/
def quote (web : Bool) (s : String) : String :=
  String.ofList ('"' :: s.toList.flatMap (escapeChar web) ++ ['"'])

mutual

/-- The lines of a value inside `margin`; the first line has no margin. -/
def prettyIn (margin : String) : Json → String
  | .num n => toString n
  | .str s => quote true s
  | .arr [] => "[]"
  | .arr items => "[\n" ++ prettyItems (margin ++ "  ") items ++ "\n" ++ margin ++ "]"
  | .obj [] => "\x7b\x7d"
  | .obj members => "\x7b\n" ++ prettyMembers (margin ++ "  ") members ++ "\n" ++ margin ++ "\x7d"

/-- The items of a list, a line start each. -/
def prettyItems (margin : String) : List Json → String
  | [] => ""
  | [v] => margin ++ prettyIn margin v
  | v :: rest => margin ++ prettyIn margin v ++ ",\n" ++ prettyItems margin rest

/-- The members of an object, a line start each. -/
def prettyMembers (margin : String) : List (String × Json) → String
  | [] => ""
  | [(k, v)] => margin ++ quote true k ++ ": " ++ prettyIn margin v
  | (k, v) :: rest =>
    margin ++ quote true k ++ ": " ++ prettyIn margin v ++ ",\n" ++ prettyMembers margin rest

end

/-- A value over several lines, two blanks a level. -/
def pretty (v : Json) : String := prettyIn "" v

end Json

end ProtoStub
