import ProtoStub.Schema.Grammar
import ProtoStub.Token.Lexer
import ProtoStub.Error

/-!
# Reading one schema file

`parseSource` reads the bytes of a file, by way of its tokens, into the raw model, with the sites of
its imports. An error found at the end of the file is reported on the line of the last token.
-/

namespace ProtoStub.Schema

/-- The line of the last token. -/
def lastLine (ts : List Token) : Nat := (ts.getLast?.map (·.line)).getD 0

/-- The error of a refused file. -/
def Refusal.error (path : String) (ts : List Token) : Refusal → Error
  | .fault line f => .parse ⟨path, (line.getD (lastLine ts) : Nat), .grammar f⟩
  | .group line => .unsupported path line .group

/-- The file at `path` with the glyphs `source`. -/
def parseSource (path : String) (source : List Text.Glyph) : Except Error Parsed :=
  match tokenize source with
  | .error e => .error (.parse ⟨path, e.line, .lexical e.fault⟩)
  | .ok ts =>
    match parseFile path ts with
    | .error r => .error (r.error path ts)
    | .ok parsed => .ok parsed

end ProtoStub.Schema
