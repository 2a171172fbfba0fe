import ProtoStub.Text.Letter
import ProtoStub.Text.Split
import ProtoStub.Program.Qualify

/-!
# Names in Visual Basic

Names are compared without regard to letter case. A name that is a reserved word has to stand in
brackets; in a dotted name that goes for each segment.
-/

namespace ProtoStub.VisualBasic

open Text

/-- The words that are no names unless they stand in brackets, in lower case. -/
def reservedWords : List String :=
  ["addhandler", "addressof", "alias", "and", "andalso", "as", "boolean", "byref", "byte", "byval",
    "call", "case", "catch", "cbool", "cbyte", "cchar", "cdate", "cdbl", "cdec", "char", "cint",
    "class", "clng", "cobj", "const", "continue", "csbyte", "cshort", "csng", "cstr", "ctype",
    "cuint", "culng", "cushort", "date", "decimal", "declare", "default", "delegate", "dim",
    "directcast", "do", "double", "each", "else", "elseif", "end", "endif", "enum", "erase",
    "error", "event", "exit", "false", "finally", "for", "friend", "function", "get", "gettype",
    "getxmlnamespace", "global", "goto", "handles", "if", "implements", "imports", "in", "inherits",
    "integer", "interface", "is", "isnot", "let", "lib", "like", "long", "loop", "me", "mod",
    "module", "mustinherit", "mustoverride", "mybase", "myclass", "nameof", "namespace",
    "narrowing", "new", "next", "not", "nothing", "notinheritable", "notoverridable", "object",
    "of", "on", "operator", "option", "optional", "or", "orelse", "overloads", "overridable",
    "overrides", "paramarray", "partial", "private", "property", "protected", "public",
    "raiseevent", "readonly", "redim", "rem", "removehandler", "resume", "return", "sbyte",
    "select", "set", "shadows", "shared", "short", "single", "static", "step", "stop", "string",
    "structure", "sub", "synclock", "then", "throw", "to", "true", "try", "trycast", "typeof",
    "uinteger", "ulong", "ushort", "using", "variant", "wend", "when", "while", "widening", "with",
    "withevents", "writeonly", "xor"]

/-- A name as names are compared. -/
def foldCase (name : String) : String := String.ofList (name.toList.map toLower)

/-- A name that is safe to write. -/
def escape (name : String) : String :=
  if reservedWords.contains (foldCase name) then "[" ++ name ++ "]" else name

/-- A dotted name that is safe to write. -/
def escapePath (name : String) : String := join "." ((split '.' name).map escape)

/-- A type name that is safe to write, behind the global root if it has to be looked up from
there. -/
def rooted (name : QualifiedName) : String :=
  if name.isGlobal then "Global." ++ escapePath name.name else escapePath name.name

end ProtoStub.VisualBasic
