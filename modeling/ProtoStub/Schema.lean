/-!
# Schemas as declared

The raw model of a set of schema files: what each file declares, in declaration order, with type
references still as written. Lines are counted from one; zero stands for an unknown line.
-/

namespace ProtoStub.Schema

/-- An import statement. `resolved` is the file it was found at, or empty for a bundled file. -/
structure Import where
  path : String
  resolved : String := ""
  isPublic : Bool := false
  deriving Repr, DecidableEq, Inhabited

/-- A field of a message. A map field has the type of its values. -/
structure Field where
  name : String
  line : Int := 0
  number : Int := 0
  repeated : Bool := false
  isMap : Bool := false
  type : String := ""
  deriving Repr, DecidableEq, Inhabited

/-- A named number of an enum. -/
structure EnumValue where
  name : String
  number : Int := 0
  deriving Repr, DecidableEq, Inhabited

/-- An enum with its values in order. -/
structure Enum where
  name : String
  line : Int := 0
  values : List EnumValue := []
  deriving Repr, DecidableEq, Inhabited

/-- A message with its fields and the messages and enums nested in it, each in order. -/
structure Message where
  name : String
  line : Int := 0
  fields : List Field := []
  messages : List Message := []
  enums : List Enum := []
  deriving Repr, Inhabited

mutual

/-- Two messages are compared part by part. -/
def Message.decEq : (a b : Message) → Decidable (a = b)
  | ⟨name, line, fields, messages, enums⟩, ⟨name', line', fields', messages', enums'⟩ =>
    have := Message.decEqAll messages messages'
    decidable_of_decidable_of_iff
      (p := name = name' ∧ line = line' ∧ fields = fields' ∧ messages = messages' ∧ enums = enums')
      (by simp)

/-- Two lists of messages are compared message by message. -/
def Message.decEqAll : (as bs : List Message) → Decidable (as = bs)
  | [], [] => isTrue rfl
  | [], _ :: _ | _ :: _, [] => isFalse (by simp)
  | a :: as, b :: bs =>
    have := Message.decEq a b
    have := Message.decEqAll as bs
    decidable_of_decidable_of_iff (p := a = b ∧ as = bs) (by simp)

end

instance : DecidableEq Message := Message.decEq

/-- A remote procedure. -/
structure Method where
  name : String
  line : Int := 0
  input : String := ""
  output : String := ""
  clientStreaming : Bool := false
  serverStreaming : Bool := false
  deriving Repr, DecidableEq, Inhabited

/-- A service with its procedures in order. -/
structure Service where
  name : String
  line : Int := 0
  methods : List Method := []
  deriving Repr, DecidableEq, Inhabited

/-- One schema file. `name` is how other files refer to it, `path` where it lies. -/
structure File where
  path : String
  name : String := ""
  package : String := ""
  imports : List Import := []
  messages : List Message := []
  enums : List Enum := []
  services : List Service := []
  deriving Repr, DecidableEq, Inhabited

end ProtoStub.Schema
