/-!
# Schema files in full

The declarations of a schema file with everything a compiler has to know: numbers, labels, ranges,
options with their values, and the line of each part that an error can point at. A map field comes
with a nested message for its entries and a group with a nested message of its own, so that every
name that is declared has its place here.
-/

namespace ProtoStub.Definition

/-- A value and the line it starts on. -/
structure At (α : Type) where
  value : α
  line : Nat
  deriving Repr, DecidableEq, Inhabited

/-- The version of the language a file is written in. -/
inductive Version where
  | proto2
  | proto3
  deriving Repr, DecidableEq, Inhabited

/-- The name of a field inside a message literal. -/
inductive LiteralName where
  | field (name : String)
  | extension (name : String)
  /-- A message type behind the address of its schema. -/
  | address (host name : String)
  deriving Repr, DecidableEq, Inhabited

/-- A field of a message literal with its value. -/
structure Assignment (α : Type) where
  name : LiteralName
  /-- The line of the name with the bracket in front of it. -/
  line : Nat
  /-- The line of the name behind the bracket. -/
  innerLine : Nat
  /-- A colon stands between name and value. -/
  colon : Bool
  value : At α
  deriving Repr, Inhabited

/-- The value of an option. -/
inductive Value where
  | text (bytes : List UInt8)
  | natural (n : Nat)
  /-- An integer with a minus sign. -/
  | negative (n : Int)
  /-- A number with a fraction or too large for an integer, or one that is no number. -/
  | real (isZero : Bool)
  | word (name : String)
  | list (items : List (At Value))
  | literal (fields : List (Assignment Value))
  deriving Repr, Inhabited

/-- One part of the name of an option. -/
structure NamePart where
  name : String
  isExtension : Bool
  line : Nat
  deriving Repr, DecidableEq, Inhabited

/-- An option with its value. -/
structure Setting where
  name : List NamePart
  value : Value
  valueLine : Nat
  /-- The line on which the statement starts that sets the option. -/
  start : Nat := 0
  deriving Repr, Inhabited

/-- The line of an option's name. -/
def Setting.line (s : Setting) : Nat := (s.name.head?.map (·.line)).getD s.valueLine

/-- The option is the plain name `name`. -/
def Setting.isNamed (s : Setting) (name : String) : Bool :=
  match s.name with
  | [p] => !p.isExtension && p.name == name
  | _ => false

/-- Numbers from `first` to `last`, both included. -/
structure Range where
  first : Int
  last : Int
  line : Nat
  /-- The range ends at the largest number there is. -/
  isOpen : Bool := false
  settings : List Setting := []
  deriving Repr, Inhabited

/-- How often a field occurs. -/
inductive Label where
  | optional
  | required
  | repeated
  deriving Repr, DecidableEq, Inhabited

/-- How a field is declared. -/
inductive Shape where
  | plain
  /-- By a map type; the type of the field is the message of its entries. -/
  | map
  /-- Together with its message; the line is that of the keyword. -/
  | group (line : Nat)
  deriving Repr, DecidableEq, Inhabited

/-- A field of a message, or an extension. -/
structure Field where
  name : At String
  line : Nat
  column : Nat := 0
  label : Option (At Label) := none
  type : At String
  shape : Shape := .plain
  /-- The number; zero, on the line of the field, when none is given. -/
  number : At Int
  settings : List Setting := []
  /-- The position of the choice the field belongs to. -/
  oneof : Option Nat := none
  extendee : Option (At String) := none
  deriving Repr, Inhabited

/-- A choice between fields. -/
structure Oneof where
  name : At String
  line : Nat := 0
  settings : List Setting := []
  deriving Repr, Inhabited

/-- A value of an enum. -/
structure EnumValue where
  name : At String
  line : Nat
  column : Nat := 0
  number : At Int
  settings : List Setting := []
  deriving Repr, Inhabited

/-- An enum. -/
structure Enum where
  name : At String
  line : Nat
  values : List EnumValue := []
  reservedRanges : List Range := []
  reservedNames : List (At String) := []
  settings : List Setting := []
  deriving Repr, Inhabited

/-- Where a message comes from. -/
inductive Origin where
  | declared
  | group
  | mapEntry
  deriving Repr, DecidableEq, Inhabited

/-- A message with all that is declared in it. -/
structure Message where
  name : At String
  line : Nat
  origin : Origin := .declared
  fields : List Field := []
  oneofs : List Oneof := []
  messages : List Message := []
  enums : List Enum := []
  extensions : List Field := []
  extensionRanges : List Range := []
  reservedRanges : List Range := []
  reservedNames : List (At String) := []
  settings : List Setting := []
  deriving Repr, Inhabited

/-- The messages inside the first of some messages are less than all of them. -/
theorem Message.sizeOf_messages_lt (m : Message) (rest : List Message) :
    sizeOf m.messages < sizeOf (m :: rest) := by
  cases m
  simp only [List.cons.sizeOf_spec, mk.sizeOf_spec]
  omega

/-- A remote procedure. -/
structure Method where
  name : At String
  line : Nat
  input : At String
  output : At String
  clientStreaming : Bool := false
  serverStreaming : Bool := false
  settings : List Setting := []
  deriving Repr, Inhabited

/-- A service. -/
structure Service where
  name : At String
  line : Nat
  methods : List Method := []
  settings : List Setting := []
  deriving Repr, Inhabited

/-- An import. -/
structure Import where
  path : String
  isPublic : Bool := false
  line : Nat
  /-- The line of the path. -/
  pathLine : Nat := 0
  deriving Repr, DecidableEq, Inhabited

/-- A schema file. -/
structure File where
  version : Version := .proto2
  /-- The line of the first token. -/
  line : Nat := 1
  /-- The file does not name its version. -/
  isUnversioned : Bool := false
  package : At String := ⟨"", 0⟩
  imports : List Import := []
  messages : List Message := []
  enums : List Enum := []
  extensions : List Field := []
  services : List Service := []
  settings : List Setting := []
  deriving Repr, Inhabited

/-- A name inside a scope. -/
def qualified (scope name : String) : String := if scope == "" then name else scope ++ "." ++ name

end ProtoStub.Definition
