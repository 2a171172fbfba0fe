import ProtoStub.Type

/-!
# Descriptors

What a compiler knows about a schema file after all references are resolved: types of fields by full
name, map fields with their entries, and the lines of declarations where they are known.
-/

namespace ProtoStub.Descriptor

/-- The type of a field. Full names have no leading dot. -/
inductive Kind where
  | scalar (s : Scalar)
  | message (fullName : String)
  | enum (fullName : String)
  | group (fullName : String)
  deriving Repr, DecidableEq, Inhabited

/-- A field. The values of a map field have the type `mapValue`. -/
structure Field where
  name : String
  line : Int := 0
  number : Int := 0
  repeated : Bool := false
  kind : Kind
  mapValue : Option Kind := none
  deriving Repr, DecidableEq, Inhabited

/-- An enum with the names and numbers of its values. -/
structure Enum where
  name : String
  line : Int := 0
  values : List (String × Int) := []
  deriving Repr, DecidableEq, Inhabited

/-- A message. The messages for the entries of maps are marked. -/
structure Message where
  name : String
  line : Int := 0
  isMapEntry : Bool := false
  fields : List Field := []
  messages : List Message := []
  enums : List Enum := []
  deriving Repr, Inhabited

/-- The messages inside the first of some messages are less than all of them. -/
theorem Message.sizeOf_messages_lt (m : Message) (rest : List Message) :
    sizeOf m.messages < sizeOf (m :: rest) := by
  cases m
  simp only [List.cons.sizeOf_spec, mk.sizeOf_spec]
  omega

/-- A remote procedure; its types by full name. -/
structure Method where
  name : String
  line : Int := 0
  input : String
  output : String
  clientStreaming : Bool := false
  serverStreaming : Bool := false
  deriving Repr, DecidableEq, Inhabited

/-- A service. -/
structure Service where
  name : String
  line : Int := 0
  methods : List Method := []
  deriving Repr, DecidableEq, Inhabited

/-- An import by name. -/
structure Import where
  path : String
  isPublic : Bool := false
  deriving Repr, DecidableEq, Inhabited

/-- A file under the name it is imported by. -/
structure File where
  path : String
  package : String := ""
  imports : List Import := []
  messages : List Message := []
  enums : List Enum := []
  services : List Service := []
  deriving Repr, Inhabited

end ProtoStub.Descriptor
