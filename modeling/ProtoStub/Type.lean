/-!
# Types of fields and procedures

A resolved type is a scalar, a message or enum of the program, or one of the bundled well-known
types, which have a JSON form of their own.
-/

namespace ProtoStub

/-- The scalar types of the schema language. -/
inductive Scalar where
  | bool
  | int32
  | int64
  | uint32
  | uint64
  | sint32
  | sint64
  | fixed32
  | fixed64
  | sfixed32
  | sfixed64
  | float
  | double
  | string
  | bytes
  deriving Repr, DecidableEq, Inhabited

namespace Scalar

/-- Every scalar with its word. -/
def words : List (String × Scalar) :=
  [("bool", .bool), ("int32", .int32), ("int64", .int64), ("uint32", .uint32), ("uint64", .uint64),
    ("sint32", .sint32), ("sint64", .sint64), ("fixed32", .fixed32), ("fixed64", .fixed64),
    ("sfixed32", .sfixed32), ("sfixed64", .sfixed64), ("float", .float), ("double", .double),
    ("string", .string), ("bytes", .bytes)]

/-- The scalar a word names. -/
def ofWord? (w : String) : Option Scalar := words.lookup w

/-- The position of a scalar among the scalars. -/
def code (s : Scalar) : Nat := words.findIdx (·.2 == s)

/-- The scalar at a position. -/
def ofCode? (n : Nat) : Option Scalar := words[n]?.map (·.2)

end Scalar

/-- The package of the bundled types. -/
def bundledPackage : String := "google.protobuf"

/-- The directory of the bundled files. -/
def bundledDirectory : String := "google/protobuf/"

/-- The wrapper types, each with the scalar it carries. -/
def wrappers : List (String × Scalar) :=
  [("DoubleValue", .double), ("FloatValue", .float), ("Int64Value", .int64),
    ("UInt64Value", .uint64), ("Int32Value", .int32), ("UInt32Value", .uint32),
    ("BoolValue", .bool), ("StringValue", .string), ("BytesValue", .bytes)]

/-- The scalar that a wrapper type carries. -/
def wrapped? (name : String) : Option Scalar := wrappers.lookup name

/-- The bundled types that have a JSON form of their own. -/
def wellKnownNames : List String :=
  ["Timestamp", "Duration", "FieldMask", "Empty", "Struct", "Value", "ListValue", "Any"] ++
    wrappers.map (·.1)

/-- The well-known type with the given full name. -/
def wellKnown? (fullName : String) : Option String :=
  wellKnownNames.find? fun name => bundledPackage ++ "." ++ name == fullName

/-- A resolved type. -/
inductive TypeRef where
  | scalar (s : Scalar)
  /-- A message by its index in the program. -/
  | message (index : Nat)
  /-- An enum by its index in the program. -/
  | enum (index : Nat)
  | wellKnown (name : String)
  /-- A code that stands for no type. -/
  | undefined (code : Int)
  deriving Repr, DecidableEq, Inhabited

/-- The numeric code of the kind of a type. -/
def TypeRef.code : TypeRef → Int
  | .scalar s => s.code
  | .message _ => 15
  | .enum _ => 16
  | .wellKnown _ => 17
  | .undefined c => c

/-- The type with a kind code, an index and a well-known name, of which the kind uses at most
one. -/
def TypeRef.ofCode (code : Int) (index : Nat) (name : String) : TypeRef :=
  if code < 0 then .undefined code
  else match Scalar.ofCode? code.toNat with
    | some s => .scalar s
    | none =>
      if code == 15 then .message index
      else if code == 16 then .enum index
      else if code == 17 then .wellKnown name
      else .undefined code

/-- The code is one of the scalars' or less. -/
def isScalarCode (code : Int) : Bool := code ≤ 14

end ProtoStub
