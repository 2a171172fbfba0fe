import ProtoStub.Type

/-!
# Types in Visual Basic

The type of a property or argument: scalars have a type each, well-known types the type that their
JSON form is read into. Some of the latter come from the library's JSON object model.
-/

namespace ProtoStub.VisualBasic

/-- The type of a scalar. -/
def scalarType : Scalar → String
  | .double => "Double"
  | .float => "Single"
  | .int32 | .sint32 | .sfixed32 => "Integer"
  | .int64 | .sint64 | .sfixed64 => "Long"
  | .uint32 | .fixed32 => "UInteger"
  | .uint64 | .fixed64 => "ULong"
  | .bool => "Boolean"
  | .string => "String"
  | .bytes => "Byte()"

/-- A type as written, and whether it needs the JSON object model. -/
structure TypeText where
  text : String
  linq : Bool := false
  deriving Repr, DecidableEq, Inhabited

/-- The type of a well-known type. A wrapper of a value type may be absent, so it is nullable. -/
def wellKnownType? (name : String) : Option TypeText :=
  if name == "Timestamp" then some { text := "DateTime" }
  else if name == "Duration" || name == "FieldMask" then some { text := "String" }
  else if name == "Empty" then some { text := "Object" }
  else if name == "Struct" || name == "Any" then some { text := "JObject", linq := true }
  else if name == "Value" then some { text := "JToken", linq := true }
  else if name == "ListValue" then some { text := "JArray", linq := true }
  else (wrapped? name).map fun s =>
    match s with
    | .string | .bytes => { text := scalarType s }
    | _ => { text := "Nullable(Of " ++ scalarType s ++ ")" }

/-- The complaint about a well-known type without a type. -/
def noMapping (name : String) : String := "no mapping for " ++ bundledPackage ++ "." ++ name

end ProtoStub.VisualBasic
