import ProtoStub.Definition.Lexer
import ProtoStub.Text.Quoted

/-!
# Warnings of a compilation

What is allowed and still worth telling. A warning points at a line of the file with a name; it may
tell where something else is declared in that file.
-/

namespace ProtoStub.Definition

open Text

/-- What a warning is about. -/
inductive Warning where
  | noVersion (name : String) (line : Nat)
  | unusedImport (name : String) (line : Nat) (path : String)
  /-- A field has the same name in wire form as the field `other`. -/
  | sameWireName (name : String) (line : Nat) (field wireName other : String) (place : Place)
  /-- An enum value has the same plain name as the value `other`. -/
  | samePlainName (name : String) (line : Nat) (value plainName other : String) (place : Place)
  deriving Repr, DecidableEq, Inhabited

namespace Warning

/-- The file a warning is about. -/
def name : Warning → String
  | .noVersion name _ | .unusedImport name _ _ => name
  | .sameWireName name _ _ _ _ _ | .samePlainName name _ _ _ _ _ => name

/-- The line a warning points at. -/
def line : Warning → Nat
  | .noVersion _ line | .unusedImport _ line _ => line
  | .sameWireName _ line _ _ _ _ | .samePlainName _ line _ _ _ _ => line

/-- Where something else is declared. -/
def definedAt (name : String) (p : Place) : String :=
  ", defined at " ++ name ++ ":" ++ toString p.line ++ ":" ++ toString p.column

/-- The wording of a warning. -/
def message : Warning → String
  | .noVersion _ _ => "no syntax specified; defaulting to proto2 syntax"
  | .unusedImport _ _ path => "import " ++ quoteText path ++ " not used"
  | .sameWireName name _ field wireName other place =>
    "field " ++ field ++ ": default JSON name " ++ quoteText wireName ++
      " conflicts with default JSON name of field " ++ other ++ definedAt name place
  | .samePlainName name _ value plainName other place =>
    "enum value " ++ value ++ ": camel-case name (with optional enum name prefix removed) " ++
      quoteText plainName ++ " conflicts with camel-case name of enum value " ++ other ++
      definedAt name place

end Warning

end ProtoStub.Definition
